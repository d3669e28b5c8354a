/-!
# Errors of input and output

A kind for a program to branch on and a text for a person. Errors raised by
the operating system carry its own wording.
-/

namespace SealedStream

inductive ErrorKind where
  | notFound | permissionDenied | connectionRefused | connectionReset | connectionAborted
  | notConnected | addrInUse | addrNotAvailable | brokenPipe | alreadyExists | wouldBlock
  | notADirectory | isADirectory | directoryNotEmpty | readOnlyFilesystem | storageFull
  | quotaExceeded | fileTooLarge | resourceBusy | invalidFilename | invalidInput | invalidData
  | timedOut | writeZero | interrupted | unsupported | unexpectedEof | outOfMemory | other
  deriving DecidableEq, Repr

namespace ErrorKind

/-- Every kind with its name. -/
def names : List (ErrorKind × String) := [
  (notFound, "NotFound"), (permissionDenied, "PermissionDenied"),
  (connectionRefused, "ConnectionRefused"), (connectionReset, "ConnectionReset"),
  (connectionAborted, "ConnectionAborted"), (notConnected, "NotConnected"),
  (addrInUse, "AddrInUse"), (addrNotAvailable, "AddrNotAvailable"), (brokenPipe, "BrokenPipe"),
  (alreadyExists, "AlreadyExists"), (wouldBlock, "WouldBlock"),
  (notADirectory, "NotADirectory"), (isADirectory, "IsADirectory"),
  (directoryNotEmpty, "DirectoryNotEmpty"), (readOnlyFilesystem, "ReadOnlyFilesystem"),
  (storageFull, "StorageFull"), (quotaExceeded, "QuotaExceeded"), (fileTooLarge, "FileTooLarge"),
  (resourceBusy, "ResourceBusy"), (invalidFilename, "InvalidFilename"),
  (invalidInput, "InvalidInput"), (invalidData, "InvalidData"), (timedOut, "TimedOut"),
  (writeZero, "WriteZero"), (interrupted, "Interrupted"), (unsupported, "Unsupported"),
  (unexpectedEof, "UnexpectedEof"), (outOfMemory, "OutOfMemory"), (other, "Other")]

def name (kind : ErrorKind) : String := (names.lookup kind).getD "Other"

def ofName? (text : String) : Option ErrorKind :=
  (names.find? fun entry => entry.2 = text).map Prod.fst

/-- How the operating system words an error of its own. -/
def systemText : ErrorKind → String
  | .notFound => "No such file or directory (os error 2)"
  | .permissionDenied => "Permission denied (os error 13)"
  | .alreadyExists => "File exists (os error 17)"
  | .resourceBusy => "Device or resource busy (os error 16)"
  | .notADirectory => "Not a directory (os error 20)"
  | .isADirectory => "Is a directory (os error 21)"
  | .storageFull => "No space left on device (os error 28)"
  | .invalidFilename => "File name too long (os error 36)"
  | .directoryNotEmpty => "Directory not empty (os error 39)"
  | kind => kind.name

end ErrorKind

inductive IoError where
  /-- Raised by the operating system, in its words. -/
  | system (kind : ErrorKind)
  | custom (kind : ErrorKind) (text : String)
  deriving DecidableEq, Repr

namespace IoError

def kind : IoError → ErrorKind
  | .system kind => kind
  | .custom kind _ => kind

def message : IoError → String
  | .system kind => kind.systemText
  | .custom _ text => text

/-- Its text is the operating system's. -/
def isSystem : IoError → Bool
  | .system _ => true
  | .custom _ _ => false

/-- A call that was only interrupted is repeated by whoever must finish it. -/
def isInterrupted (e : IoError) : Bool := e.kind = .interrupted

/-- A source ended before a buffer was filled. -/
def unfilled : IoError := .custom .unexpectedEof "failed to fill whole buffer"

/-- A sink took nothing of what was left to write. -/
def stuck : IoError := .custom .writeZero "failed to write whole buffer"

end IoError

end SealedStream
