import RailBus.Text.Blank
/-! # Intel HEX records

A firmware file is Intel HEX text, one record per line: a colon, then pairs of hexadecimal
digits (either case) giving the bytes `[count, offset high, offset low, type, payload…, check]`,
where the payload holds `count` bytes and all bytes sum to 0 modulo 256.

`decodeLine` reads one line (`decodeChars` its characters), ignoring blanks around it. The
checks run in a fixed order and the first failing one names the error: the colon (`missingColon`); an even number of at least ten
digits (`badLength`); each pair in turn, its two digits (`badDigit`) and room for it among at
most 260 bytes (`badLength`); the count against the number of bytes (`badLength`); the sum
(`badChecksum`); and last the type, where types 2 and 4 need a payload of exactly two bytes
(`badLength`) and a type above 5 is refused (`unknownType`). Digits are looked at as the UTF-8
bytes of the text, so a character outside ASCII counts as several digits, none of them valid.
-/

namespace RailBus.Firmware

open Text

/-- The most bytes a record line can hold: 255 payload bytes and five more. -/
def recordCapacity : Nat := 260

/-- What a well-formed line says. -/
inductive Record where
  /-- Bytes to place at `offset` above the current base address. -/
  | data (offset : UInt16) (bytes : List UInt8)
  /-- The end of the file. -/
  | endOfFile
  /-- A new base address, already shifted into place. -/
  | base (address : UInt32)
  /-- An entry point, of no use for flashing. -/
  | start
  deriving DecidableEq, Repr

/-- Why a line is not a record. -/
inductive HexError where
  | missingColon
  | badDigit
  | badLength
  | badChecksum
  | unknownType (kind : UInt8)
  deriving DecidableEq, Repr

/-- Two lowercase hexadecimal digits of a byte. -/
def hexByte (byte : UInt8) : String :=
  let digit (n : Nat) : Char := if n < 10 then Char.ofNat (48 + n) else Char.ofNat (87 + n)
  String.ofList [digit (byte.toNat / 16), digit (byte.toNat % 16)]

/-- The report of a malformed line. -/
def HexError.message : HexError → String
  | .missingColon => "hex record must start with ':'"
  | .badDigit => "invalid hexadecimal digits in record"
  | .badLength => "record length does not match its byte count"
  | .badChecksum => "record checksum mismatch"
  | .unknownType kind => "unknown record type 0x" ++ hexByte kind

/-- The value of one hexadecimal digit, given as a byte of text. -/
def nibble? (digit : UInt8) : Option UInt8 :=
  if 0x30 ≤ digit ∧ digit ≤ 0x39 then some (digit - 0x30)
  else if 0x61 ≤ digit ∧ digit ≤ 0x66 then some (digit - 0x61 + 10)
  else if 0x41 ≤ digit ∧ digit ≤ 0x46 then some (digit - 0x41 + 10)
  else none

/-- One hexadecimal digit, or the error for a bad one. -/
def nibble (digit : UInt8) : Except HexError UInt8 :=
  match nibble? digit with
  | some value => .ok value
  | none => .error .badDigit

/-- Read digit pairs into bytes, `held` bytes being read already: each pair's digits are
checked before there is room for its byte. -/
def readPairs (held : Nat) : List UInt8 → Except HexError (List UInt8)
  | high :: low :: rest => do
    let high ← nibble high
    let low ← nibble low
    if held = recordCapacity then throw .badLength
    let rest ← readPairs (held + 1) rest
    pure (((high <<< 4) ||| low) :: rest)
  | _ => pure []

/-- The sum of bytes modulo 256. -/
def byteSum (bytes : List UInt8) : UInt8 :=
  bytes.foldl (· + ·) 0

/-- The big-endian word of a two-byte payload. -/
def word? : List UInt8 → Except HexError UInt16
  | [high, low] => .ok ((high.toUInt16 <<< 8) ||| low.toUInt16)
  | _ => .error .badLength

/-- The record a checked byte list holds, by its type byte. -/
def Record.ofBytes (kind : UInt8) (offset : UInt16) (payload : List UInt8) :
    Except HexError Record :=
  match kind with
  | 0 => .ok (.data offset payload)
  | 1 => .ok .endOfFile
  | 2 => do return .base ((← word? payload).toUInt32 <<< 4)
  | 4 => do return .base ((← word? payload).toUInt32 <<< 16)
  | 3 | 5 => .ok .start
  | other => .error (.unknownType other)

/-- The UTF-8 bytes of characters. -/
def utf8 (chars : List Char) : List UInt8 :=
  chars.flatMap String.utf8EncodeChar

/-- **Decode the characters of one line of a HEX file**, blanks around them ignored. -/
def decodeChars (line : List Char) : Except HexError Record := do
  let digits ← match trimBlank line with
    | ':' :: rest => pure (utf8 rest)
    | _ => throw .missingColon
  if digits.length % 2 ≠ 0 ∨ digits.length < 10 then throw .badLength
  let raw ← readPairs 0 digits
  match raw with
  | count :: high :: low :: kind :: rest =>
    if raw.length ≠ count.toNat + 5 then throw .badLength
    if byteSum raw ≠ 0 then throw .badChecksum
    Record.ofBytes kind ((high.toUInt16 <<< 8) ||| low.toUInt16) (rest.take count.toNat)
  | _ => throw .badLength

/-- Decode one line of a HEX file. -/
def decodeLine (line : String) : Except HexError Record :=
  decodeChars line.toList

end RailBus.Firmware
