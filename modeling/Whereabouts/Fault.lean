import Whereabouts.Wire.Hex

/-! # Faults

Everything that can fail names its cause here.  A cause has a stable code for machines and one
sentence for people; nothing else in the library words an error. -/

namespace Whereabouts

/-- Why the system does not open or read a file. -/
inductive FileFailure where
  | notPermitted
  | notFound
  /-- The file was opened and could not be read. -/
  | unreadable
  | noDevice
  | denied
  | busy
  /-- A path goes on behind a name that is no directory. -/
  | notDirectory
  | isDirectory
  | invalid
  | nameTooLong
  /-- Symbolic links lead to each other without end. -/
  | linkLoop
deriving DecidableEq, Repr

/-- Why a settings file could not be read. -/
inductive ReadFailure where
  | file (failure : FileFailure)
  | notText
  /-- Any other cause, in the words of the system. -/
  | other (reason : String)
deriving DecidableEq, Repr

/-- The cause of a failure. -/
inductive Fault where
  /-- A read of fixed width met the end of its octets. -/
  | truncated (needed remaining : Nat)
  /-- The settings are no YAML document of the expected shape. -/
  | malformedSettings
  /-- The settings ask for an empty or an over-long queue of requests. -/
  | queueLimit (most : Nat)
  /-- The option that names the settings file stands last. -/
  | missingPath
  /-- The settings are written for another version. -/
  | unsupportedVersion
  | unreadableSettings (failure : ReadFailure)
  /-- A record on the command line is no hexadecimal text. -/
  | badRecord (index : Nat) (fault : HexFault)
deriving DecidableEq, Repr

namespace HexFault

/-- How a refused octet is shown: as the character of that number between single quotes, in
an escaped form where it has no visible one. -/
def showOctet (octet : UInt8) : String :=
  if octet = 0 then "'\\0'"
  else if octet = 9 then "'\\t'"
  else if octet = 10 then "'\\n'"
  else if octet = 13 then "'\\r'"
  else if octet = 39 then "'\\''"
  else if octet = 92 then "'\\\\'"
  else if octet < 32 ∨ (127 ≤ octet ∧ octet ≤ 160) ∨ octet = 173 then
    "'\\u\x7b" ++ Hex.ofNat octet.toNat ++ "\x7d'"
  else "'" ++ String.singleton (Char.ofNat octet.toNat) ++ "'"

def message : HexFault → String
  | oddLength => "Odd number of digits"
  | badDigit octet offset =>
      "Invalid character " ++ showOctet octet ++ " at position " ++ toString offset

end HexFault

namespace FileFailure

def number : FileFailure → Nat
  | notPermitted => 1
  | notFound => 2
  | unreadable => 5
  | noDevice => 6
  | denied => 13
  | busy => 16
  | notDirectory => 20
  | isDirectory => 21
  | invalid => 22
  | nameTooLong => 36
  | linkLoop => 40

def words : FileFailure → String
  | notPermitted => "Operation not permitted"
  | notFound => "No such file or directory"
  | unreadable => "Input/output error"
  | noDevice => "No such device or address"
  | denied => "Permission denied"
  | busy => "Device or resource busy"
  | notDirectory => "Not a directory"
  | isDirectory => "Is a directory"
  | invalid => "Invalid argument"
  | nameTooLong => "File name too long"
  | linkLoop => "Too many levels of symbolic links"

def all : List FileFailure :=
  [notPermitted, notFound, unreadable, noDevice, denied, busy, notDirectory, isDirectory, invalid,
    nameTooLong, linkLoop]

def ofNumber? (number : Nat) : Option FileFailure := all.find? fun f => f.number == number

theorem ofNumber?_number (f : FileFailure) : ofNumber? f.number = some f := by
  cases f <;> rfl

end FileFailure

namespace ReadFailure

def message : ReadFailure → String
  | file f => f.words ++ " (os error " ++ toString f.number ++ ")"
  | notText => "stream did not contain valid UTF-8"
  | other reason => reason

end ReadFailure

namespace Fault

/-- The stable code of a failure. -/
def code : Fault → String
  | truncated .. => "TRUNCATED"
  | malformedSettings | queueLimit _ | missingPath => "BAD_CONFIG"
  | unsupportedVersion => "UNSUPPORTED_VERSION"
  | unreadableSettings _ | badRecord .. => "INTERNAL"

def message : Fault → String
  | truncated needed remaining =>
      "truncated: needed " ++ toString needed ++ " bytes, " ++ toString remaining ++ " remaining"
  | malformedSettings => "bad config: invalid yaml"
  | queueLimit most =>
      "bad config: pending.max_entries must be between 1 and " ++ toString most
  | missingPath => "bad config: --config needs a path"
  | unsupportedVersion => "unsupported config version"
  | unreadableSettings failure => "internal: read config failed: " ++ failure.message
  | badRecord index fault =>
      "internal: record " ++ toString index ++ ": invalid hex: " ++ fault.message

/-- The line that reports a failure. -/
def line (f : Fault) : String := "error [" ++ f.code ++ "]: " ++ f.message

end Fault
end Whereabouts
