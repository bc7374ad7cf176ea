import Ucisdk.Scan.Quoted
import Ucisdk.SkfApi

/-!
# Texts of the SKF adapter

Payloads carry bytes as they are or in hex, answers carry them in hex. A hex
text is written into a buffer, and what does not fit is left out.
-/

set_option autoImplicit false

namespace Ucisdk.SkfText

open Ucisdk.CString Ucisdk.Common Ucisdk.SkfApi

section Hex

def hexDigit (c : UInt8) : Option UInt8 :=
  if 48 ≤ c && c ≤ 57 then some (c - 48)
  else if 97 ≤ c && c ≤ 102 then some (c - 97 + 10)
  else if 65 ≤ c && c ≤ 70 then some (c - 65 + 10)
  else none

/-- A blank, a colon or a dash. -/
def isSeparator (c : UInt8) : Bool := c == 32 || c == 58 || c == 45

/-- `decode_hex`; the capacity counts the bytes that may still be written. -/
def decodeHex : Bytes → ℕ → Option Bytes
  | [], _ => some []
  | [c], _ => if isSeparator c then some [] else none
  | c :: d :: rest, cap =>
    if isSeparator c then decodeHex (d :: rest) cap
    else
      match hexDigit c, hexDigit d, cap with
      | some hi, some lo, cap + 1 => (decodeHex rest cap).map ((hi <<< 4 ||| lo) :: ·)
      | _, _, _ => none

/-- A place in `"0123456789abcdef"`. -/
def hexChar (n : UInt8) : UInt8 := if n < 10 then 48 + n else 87 + n

/-- The loop of `bytes_to_hex` from a place in the buffer on. -/
def hexFrom (outSz : ℕ) : Bytes → ℕ → Bytes
  | [], _ => []
  | b :: rest, pos =>
    if pos + 2 < outSz then
      hexChar (b >>> 4 &&& 0x0f) :: hexChar (b &&& 0x0f) :: hexFrom outSz rest (pos + 2)
    else []

def bytesToHex (input : Bytes) (outSz : ℕ) : Bytes := hexFrom outSz input 0

/-- The text of `%08X`. -/
def hexUpper (v : Ulong) : Bytes :=
  let digits := (Nat.toDigits 16 v.toNat).map fun c => UInt8.ofNat c.toUpper.toNat
  List.replicate (8 - digits.length) 48 ++ digits

end Hex

def hexPrefix : Bytes := lit "hex:"

/-- `input_to_bytes` of a text that is not `NULL`. -/
def inputToBytes (text : Bytes) (outCap : ℕ) : Option Bytes :=
  if hexPrefix.isPrefixOf text then decodeHex (text.drop 4) outCap
  else if text.length ≤ outCap then some text
  else none

/-- `blob_from_hex`: the bytes that were decoded. -/
def blobFromHex (text : Bytes) (blobSz : ℕ) : Option Bytes :=
  if text = [] then none
  else decodeHex (if hexPrefix.isPrefixOf text then text.drop 4 else text) blobSz

/-- What a buffer of that size holds that was cleared and then written to. -/
def filled (size : ℕ) (bytes : Bytes) : Bytes := (bytes ++ List.replicate size 0).take size

/-- A structure that `blob_from_hex` fills. -/
def structFromHex (text : Bytes) (blobSz : ℕ) : Option Bytes :=
  (blobFromHex text blobSz).map (filled blobSz)

def isdigit (c : UInt8) : Bool := 48 ≤ c && c ≤ 57

def natOfDigits (s : Bytes) : ℕ := s.foldl (fun n c => 10 * n + (c.toNat - 48)) 0

/-- `strtoul` to base 10 of the digits behind the sign, unless it fails. -/
def strtoulDigits (negative : Bool) (s : Bytes) : Option UInt64 :=
  let digits := s.takeWhile isdigit
  if digits = [] ∨ 2 ^ 64 ≤ natOfDigits digits then none
  else if negative then some (-UInt64.ofNat (natOfDigits digits))
  else some (UInt64.ofNat (natOfDigits digits))

def strtoul (s : Bytes) : Option UInt64 :=
  match s.dropWhile isspace with
  | [] => none
  | c :: rest =>
    if c = 45 then strtoulDigits true rest
    else if c = 43 then strtoulDigits false rest
    else strtoulDigits false (c :: rest)

def parseUlong (text : Bytes) (fallback : Ulong) : Option Ulong :=
  if text = [] then some fallback else (strtoul text).map UInt64.toUInt32

def algToSkfId (algorithm : Bytes) : Ulong :=
  if algorithm = lit "sm3" then sgdSm3
  else if algorithm = lit "sha256" then sgdSha256
  else if algorithm = lit "sm2" ∨ algorithm = lit "sm2-sign" then sgdSm21
  else if algorithm = lit "sm2-enc" then sgdSm23
  else if algorithm = lit "rsa" ∨ algorithm = lit "rsa-sign" then sgdRsaSign
  else if algorithm = lit "rsa-enc" then sgdRsaEnc
  else if algorithm = lit "sm4" ∨ algorithm = lit "sm4-cbc" then sgdSm4Cbc
  else if algorithm = lit "sm4-ecb" then sgdSm4Ecb
  else 0

/-- The texts in front of and behind the first bar, for two arrays of 1024 bytes. -/
def splitPair (text : Bytes) : Option (Bytes × Bytes) :=
  match Scan.Quoted.after [124] text with
  | none => none
  | some right =>
    if (text.takeWhile (· ≠ 124)).length ≥ maxPayloadLen then none
    else some (text.takeWhile (· ≠ 124), (store maxPayloadLen right).bytes)

end Ucisdk.SkfText
