import SealedStream.Custody
import SealedStream.Text.Json

/-!
# The report on the content key

As lines for a person, or as a JSON document that leaves out what is not known.
-/

namespace SealedStream.CommandLine.KeyReport

open Text (Json)

def presence (present : Bool) : String := if present then "present" else "absent"

def generatedAt (s : KeyStatus) : String :=
  match s.marker, s.keyTier with
  | some level, some tier => s!"level {level.toInt} ({tier.label})"
  | _, _ => "(no key recorded)"

def lines (s : KeyStatus) : List String := [
  "LocalSeal Key Status",
  "====================",
  s!"Host platform level: {s.hostLevel.toNat}",
  s!"Host tier:           {s.hostTier.label}",
  s!"Key generated at:    {generatedAt s}",
  "",
  s!"Vault symmetric key: {presence s.hasDirectKey}",
  s!"Vault wrapping pair: {presence s.hasWrapKey}",
  s!"Wrapped key blob:    {presence s.hasWrappedBlob}",
  "Key cache:           " ++ (if s.cached then "resolved" else "empty")]

def json (s : KeyStatus) : Json :=
  let level := match s.marker with
    | some level => [("key_platform_level", Json.integer level.toInt)]
    | none => []
  let tier := match s.keyTier with
    | some tier => [("key_tier", Json.string tier.label)]
    | none => []
  .object ([("host_level", .integer s.hostLevel.toNat), ("host_tier", .string s.hostTier.label)] ++
    level ++ tier ++
    [("direct_key", .bool s.hasDirectKey), ("wrap_key", .bool s.hasWrapKey),
      ("wrapped_blob", .bool s.hasWrappedBlob), ("cached", .bool s.cached)])

/-- The report in a format; any but one stands for lines. -/
def text (s : KeyStatus) (format : String) : String :=
  if format = "json" then (json s).written ++ "\n"
  else String.join ((lines s).map (· ++ "\n"))

end SealedStream.CommandLine.KeyReport
