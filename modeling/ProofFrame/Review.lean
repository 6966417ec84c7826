import ProofFrame.Json
import ProofFrame.Lib.Ascii

/-!
# Review

The JSON writer of the review, which follows Python's `json.dumps` with an
indentation of two and nothing but ASCII.
-/

namespace ProofFrame

open Lib

namespace Review

/-- `\u{unit:04x}`. -/
def unicodeEscape (unit : ℕ) : List Char :=
  ['\\', 'u', Nat.digitChar (unit / 4096 % 16), Nat.digitChar (unit / 256 % 16),
    Nat.digitChar (unit / 16 % 16), Nat.digitChar (unit % 16)]

/-- `char::encode_utf16`. -/
def encodeUtf16 (c : Char) : List ℕ :=
  if c.toNat < 0x10000 then [c.toNat]
  else [0xD800 + (c.toNat - 0x10000) / 0x400, 0xDC00 + (c.toNat - 0x10000) % 0x400]

/-- A character of `python_string`. -/
def pythonCharacter (c : Char) : List Char :=
  if c = '"' then ['\\', '"']
  else if c = '\\' then ['\\', '\\']
  else if c = '\n' then ['\\', 'n']
  else if c = '\r' then ['\\', 'r']
  else if c = '\t' then ['\\', 't']
  else if c.toNat = 0x8 then ['\\', 'b']
  else if c.toNat = 0xC then ['\\', 'f']
  else if c.toNat < 0x20 then unicodeEscape c.toNat
  else if c.toNat < 0x7F then [c]
  else (encodeUtf16 c).flatMap unicodeEscape

/-- `python_string`. -/
def pythonString (value : String) : List Char :=
  '"' :: (value.toList.flatMap pythonCharacter ++ ['"'])

/-- Two blanks for each level. -/
def pad (level : ℕ) : List Char := (List.replicate level [' ', ' ']).flatten

mutual

/-- `python_json`. -/
def pythonJson (depth : ℕ) : Json → List Char
  | .object [] => ['\x7b', '\x7d']
  | .object (member :: members) =>
      ['\x7b', '\n'] ++ pythonMembers depth (member :: members) ++ ['\n'] ++ pad depth ++ ['\x7d']
  | .array [] => ['[', ']']
  | .array (item :: items) =>
      ['[', '\n'] ++ pythonItems depth (item :: items) ++ ['\n'] ++ pad depth ++ [']']
  | .string value => pythonString value
  | .bool true => ['t', 'r', 'u', 'e']
  | .bool false => ['f', 'a', 'l', 's', 'e']
  | .null => ['n', 'u', 'l', 'l']
  | .number text => text.toList

/-- The items with a comma and a line break between them. -/
def pythonItems (depth : ℕ) : List Json → List Char
  | [] => []
  | [item] => pad (depth + 1) ++ pythonJson (depth + 1) item
  | item :: items =>
      pad (depth + 1) ++ pythonJson (depth + 1) item ++ [',', '\n'] ++ pythonItems depth items

def pythonMembers (depth : ℕ) : List (String × Json) → List Char
  | [] => []
  | [(name, value)] =>
      pad (depth + 1) ++ pythonString name ++ [':', ' '] ++ pythonJson (depth + 1) value
  | (name, value) :: members =>
      pad (depth + 1) ++ pythonString name ++ [':', ' '] ++ pythonJson (depth + 1) value ++
        [',', '\n'] ++ pythonMembers depth members

end

end Review

end ProofFrame
