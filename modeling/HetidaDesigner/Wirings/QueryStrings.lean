import HetidaDesigner.Library.KeyedList
import HetidaDesigner.Models.Io
import Mathlib.Data.Nat.Digits.Defs

/-!
# Query strings

What `parse_qs` makes of the query of a uri, and the JSON text of a list of texts. Bytes which are
no UTF-8 are replaced: each longest part which could have been continued by one character.
-/

namespace HetidaDesigner

open KeyedList

/-! ## Bytes -/

/-- The character which stands for what cannot be decoded. -/
def replacementChar : Char := Char.ofNat 0xFFFD

/-- The first bytes of a character: how many have to follow, the range of the next one, and the
bits read so far. -/
structure Utf8Pending where
  needed : ℕ
  lower : ℕ
  upper : ℕ
  code : ℕ

/-- Read a byte which begins a character. -/
def utf8Start (byte : ℕ) : PyStr × Option Utf8Pending :=
  if byte < 0x80 then ([Char.ofNat byte], none)
  else if 0xC2 ≤ byte ∧ byte ≤ 0xDF then ([], some ⟨1, 0x80, 0xBF, byte - 0xC0⟩)
  else if 0xE0 ≤ byte ∧ byte ≤ 0xEF then
    ([], some ⟨2, if byte = 0xE0 then 0xA0 else 0x80, if byte = 0xED then 0x9F else 0xBF,
      byte - 0xE0⟩)
  else if 0xF0 ≤ byte ∧ byte ≤ 0xF4 then
    ([], some ⟨3, if byte = 0xF0 then 0x90 else 0x80, if byte = 0xF4 then 0x8F else 0xBF,
      byte - 0xF0⟩)
  else ([replacementChar], none)

/-- The method `decode` of bytes with replacement, after the first bytes of a character. -/
def decodeUtf8 : Option Utf8Pending → List ℕ → PyStr
  | none, [] => []
  | some _, [] => [replacementChar]
  | none, byte :: rest =>
    let (chars, pending) := utf8Start byte
    chars ++ decodeUtf8 pending rest
  | some pending, byte :: rest =>
    if pending.lower ≤ byte ∧ byte ≤ pending.upper then
      let code := 64 * pending.code + (byte - 0x80)
      if pending.needed = 1 then Char.ofNat code :: decodeUtf8 none rest
      else decodeUtf8 (some ⟨pending.needed - 1, 0x80, 0xBF, code⟩) rest
    else
      -- the byte which does not fit begins the next character
      let (chars, pending) := utf8Start byte
      replacementChar :: chars ++ decodeUtf8 pending rest

/-- The value of a digit to the base 16. -/
def hexValue (c : Char) : Option ℕ :=
  if '0' ≤ c ∧ c ≤ '9' then some (c.toNat - '0'.toNat)
  else if 'a' ≤ c ∧ c ≤ 'f' then some (c.toNat - 'a'.toNat + 10)
  else if 'A' ≤ c ∧ c ≤ 'F' then some (c.toNat - 'A'.toNat + 10)
  else none

/-- `unquote_to_bytes` for ASCII texts: bytes which are written as `%` and two digits. -/
def unquoteToBytes : PyStr → List ℕ
  | '%' :: high :: low :: rest =>
    match hexValue high, hexValue low with
    | some high, some low => (16 * high + low) :: unquoteToBytes rest
    | _, _ => '%'.toNat :: unquoteToBytes (high :: low :: rest)
  | c :: rest => c.toNat :: unquoteToBytes rest
  | [] => []

/-- Characters which `unquote` decodes. -/
def isAscii (c : Char) : Bool := c.toNat < 0x80

/-- `unquote`: each run of ASCII characters is decoded for itself. -/
def unquote (text : PyStr) : PyStr :=
  (text.splitBy fun c d => isAscii c == isAscii d).flatMap fun run =>
    if run.all isAscii then decodeUtf8 none (unquoteToBytes run) else run

/-! ## Queries -/

/-- Name and value of a part of a query; parts without value are left out. -/
def queryPair (part : PyStr) : Option (PyStr × PyStr) :=
  match part.dropWhile (· ≠ '=') with
  | _ :: c :: value =>
    let decode (text : PyStr) := unquote (text.map fun d => if d = '+' then ' ' else d)
    some (decode (part.takeWhile (· ≠ '=')), decode (c :: value))
  | _ => none

/-- Add a value under its name. -/
def addQueryValue (parsed : List (PyStr × List PyStr)) (pair : PyStr × PyStr) :
    List (PyStr × List PyStr) :=
  let values := (lookup Prod.fst pair.1 parsed).elim [] Prod.snd
  insertEntry Prod.fst parsed (pair.1, values ++ [pair.2])

/-- `parse_qs`: the values of a query under their names. -/
def parseQs (query : PyStr) : List (PyStr × List PyStr) :=
  ((query.splitOn '&').filterMap queryPair).foldl addQueryValue []

/-! ## JSON texts -/

/-- Four digits to the base 16. -/
def jsonHex (unit : ℕ) : PyStr := "\\u".toList ++ (Nat.toDigits 16 unit).leftpad 4 '0'

/-- A character in a JSON text. Characters beyond 16 bits become two surrogates. -/
def jsonEscape (c : Char) : PyStr :=
  if c = '"' then "\\\"".toList
  else if c = '\\' then "\\\\".toList
  else if c = '\n' then "\\n".toList
  else if c = '\r' then "\\r".toList
  else if c = '\t' then "\\t".toList
  else if c = '\x0c' then "\\f".toList
  else if c = '\x08' then "\\b".toList
  else if ' ' ≤ c ∧ c ≤ '~' then [c]
  else if c.toNat < 0x10000 then jsonHex c.toNat
  else jsonHex (0xD800 + (c.toNat - 0x10000) / 0x400) ++
    jsonHex (0xDC00 + (c.toNat - 0x10000) % 0x400)

/-- `json.dumps` for a text. -/
def jsonText (text : PyStr) : PyStr := '"' :: text.flatMap jsonEscape ++ ['"']

/-- `json.dumps` for a list of texts. -/
def jsonTexts (texts : List PyStr) : PyStr :=
  '[' :: ", ".toList.intercalate (texts.map jsonText) ++ [']']

end HetidaDesigner
