import SealedStream.Text.Decimal

/-!
# The arguments of the program

Options come in a long and a short form and with their value attached or behind
them; flags may share one dash. Three options are known everywhere: given both
before and after the command, the later one counts. At either place each option
may be given once. Two dashes end the options. Arguments are read from left to
right: the first that cannot stand where it does, or that asks for help, decides.
-/

namespace SealedStream.CommandLine

/-- Why the arguments lead to no command. -/
inductive Stop where
  | usage
  | help
  | version
  deriving DecidableEq, Repr

inductive Flag where
  | stateDirectory | platformLevel | verbose | output | format | help | version
  deriving DecidableEq, Repr

namespace Flag

def long : Flag → String
  | stateDirectory => "state-dir"
  | platformLevel => "platform-level"
  | verbose => "verbose"
  | output => "output"
  | format => "format"
  | help => "help"
  | version => "version"

def short : Flag → Char
  | stateDirectory => 's'
  | platformLevel => 'p'
  | verbose => 'v'
  | output => 'o'
  | format => 'f'
  | help => 'h'
  | version => 'V'

def takesValue : Flag → Bool
  | stateDirectory | platformLevel | output | format => true
  | verbose | help | version => false

/-- Known before and after the command. -/
def everywhere : List Flag := [stateDirectory, platformLevel, verbose, help]

end Flag

/-- A platform level as it may be written. -/
def levelOf? (text : String) : Option UInt32 :=
  match Text.Decimal.signed? text with
  | some n => if 0 ≤ n ∧ n < UInt32.size then some (UInt32.ofNat n.toNat) else none
  | none => none

def acceptsValue (flag : Flag) (value : String) : Bool :=
  match flag with
  | .stateDirectory | .output => value ≠ ""
  | .platformLevel => (levelOf? value).isSome
  | _ => true

/-- What may stand before or after the command. -/
structure Place where
  options : List Flag
  /-- How many words that are no options. -/
  words : Nat

namespace Place

def beforeCommand : Place := ⟨.version :: Flag.everywhere, 0⟩

/-- What may stand after a command of a name. -/
def after (name : String) : Place :=
  if name = "encrypt" ∨ name = "decrypt" then ⟨.output :: Flag.everywhere, 1⟩
  else if name = "status" then ⟨.format :: Flag.everywhere, 0⟩
  else ⟨Flag.everywhere, 0⟩

end Place

/-- What has been read at one place: options with their values, and the other words. -/
structure Given where
  options : List (Flag × String) := []
  words : List String := []
  deriving DecidableEq

namespace Given

def value? (g : Given) (flag : Flag) : Option String := g.options.lookup flag

def add (g : Given) (flag : Flag) (value : String) : Except Stop Given :=
  match flag with
  | .help => .error .help
  | .version => .error .version
  | _ =>
    if (g.value? flag).isSome ∨ ¬ acceptsValue flag value then .error .usage
    else .ok { g with options := g.options ++ [(flag, value)] }

/-- A word that there is room for. No word is empty. -/
def addWord (most : Nat) (g : Given) (word : String) : Except Stop Given :=
  if word = "" ∨ most ≤ g.words.length then .error .usage
  else .ok { g with words := g.words ++ [word] }

end Given

/-- What one argument turns out to be. -/
inductive Element where
  | complete (g : Given)
  /-- An option whose value is the next argument. -/
  | wants (flag : Flag) (g : Given)
  | word
  | endOfOptions

/-- Flags that share a dash; an option among them takes what is left as its value. -/
def readCluster (scope : List Flag) : List Char → Given → Except Stop Element
  | [], g => .ok (.complete g)
  | c :: rest, g =>
    match scope.find? fun flag => flag.short = c with
    | none => .error .usage
    | some flag =>
      if flag.takesValue then
        match rest with
        | [] => .ok (.wants flag g)
        | '=' :: value => (g.add flag (String.ofList value)).map .complete
        | value => (g.add flag (String.ofList value)).map .complete
      else
        match g.add flag "" with
        | .error stop => .error stop
        | .ok g => readCluster scope rest g

def readLong (scope : List Flag) (text : List Char) (g : Given) : Except Stop Element :=
  let name := text.takeWhile (· ≠ '=')
  match scope.find? fun flag => flag.long.toList = name, text.drop name.length with
  | none, _ => .error .usage
  | some flag, [] => if flag.takesValue then .ok (.wants flag g) else (g.add flag "").map .complete
  | some flag, _ :: value =>
    if flag.takesValue then (g.add flag (String.ofList value)).map .complete else .error .usage

def readElement (scope : List Flag) (argument : String) (g : Given) : Except Stop Element :=
  match argument.toList with
  | ['-', '-'] => .ok .endOfOptions
  | '-' :: '-' :: text => readLong scope text g
  | '-' :: c :: text => readCluster scope (c :: text) g
  | _ => .ok .word

/-- An argument that may be the value of an option before it. -/
def isDetachedValue (argument : String) : Bool :=
  match argument.toList with
  | '-' :: _ :: _ => false
  | _ => true

/--
Reads the arguments of one place. Before the command the first word ends the
place: it names the command, and what follows it is left.
-/
def readPlace (place : Place) (beforeCommand : Bool) :
    List String → Given → Except Stop (Given × Option (String × List String))
  | [], g => .ok (g, none)
  | argument :: rest, g =>
    match readElement place.options argument g with
    | .error stop => .error stop
    | .ok (.complete g) => readPlace place beforeCommand rest g
    | .ok (.wants flag g) =>
      match rest with
      | [] => .error .usage
      | value :: rest =>
        if isDetachedValue value then
          match g.add flag value with
          | .error stop => .error stop
          | .ok g => readPlace place beforeCommand rest g
        else .error .usage
    | .ok .word =>
      if beforeCommand then .ok (g, some (argument, rest))
      else
        match g.addWord place.words argument with
        | .error stop => .error stop
        | .ok g => readPlace place beforeCommand rest g
    | .ok .endOfOptions => (rest.foldlM (Given.addWord place.words) g).map (·, none)

inductive Command where
  | encrypt (input output : String)
  | decrypt (input output : String)
  | status (format : String)
  | version
  deriving DecidableEq, Repr

structure Invocation where
  stateDirectory : String
  level : Option UInt32
  verbose : Bool
  command : Command
  deriving DecidableEq, Repr

/-- The command of a name with what was given behind it. -/
def commandOf (name : String) (g : Given) : Except Stop Command :=
  match name, g.words, g.value? .output with
  | "encrypt", [input], some output => .ok (.encrypt input output)
  | "decrypt", [input], some output => .ok (.decrypt input output)
  | "status", [], none => .ok (.status ((g.value? .format).getD "text"))
  | "version", [], none => .ok .version
  | _, _, _ => .error .usage

def commandNames : List String := ["encrypt", "decrypt", "status", "version", "help"]

/-- The request for help on the program or on one command. -/
def helpStop (topics : List String) : Stop :=
  match topics with
  | [] => .help
  | [topic] => if topic ∈ commandNames then .help else .usage
  | _ => .usage

def parse (arguments : List String) : Except Stop Invocation := do
  let (before, command) ← readPlace .beforeCommand true arguments {}
  match command with
  | none => throw .usage
  | some (name, rest) =>
    if name = "help" then throw (helpStop rest)
    if name ∉ commandNames then throw .usage
    let (behind, _) ← readPlace (.after name) false rest {}
    let command ← commandOf name behind
    let value? (flag : Flag) : Option String := (behind.value? flag).or (before.value? flag)
    return {
      stateDirectory := (value? .stateDirectory).getD ".localseal"
      level := (value? .platformLevel).bind levelOf?
      verbose := (value? .verbose).isSome
      command := command }

end SealedStream.CommandLine
