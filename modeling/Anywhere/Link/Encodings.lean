import Anywhere.Lib.Base64
import Anywhere.Link.Configuration

/-!
# Anywhere — identifiers and keys in share links

A UUID, a short id and a public key as texts: `java.util.UUID`, hexadecimal digits, and
`android.util.Base64` in its URL-safe form, whose decoder skips what is not in the alphabet.
-/

namespace Anywhere.Link

open Lib

/-- The last digits of a number, as many as asked for. -/
def hexText : Nat → Nat → Text
  | 0, _ => []
  | width + 1, n => hexText width (n / 16) ++ [(n % 16).digitChar]

namespace Uuid

/-- `toString()`. -/
def toText (u : Uuid) : Text :=
  let most := u.mostSigBits.toNat
  let least := u.leastSigBits.toNat
  hexText 8 (most / 2 ^ 32) ++ '-' :: (hexText 4 (most / 2 ^ 16) ++ '-' :: (hexText 4 most ++
    '-' :: (hexText 4 (least / 2 ^ 48) ++ '-' :: hexText 12 least)))

/-- A component of `fromString`: the last bits of a number. -/
def component (bits : Nat) (text : Text) : Option Nat :=
  (Text.toNumberOrNull 64 16 text).map fun n => n.toNat % 2 ^ bits

/-- `UUID.fromString(name)`; none where it throws. -/
def fromString (name : Text) : Option Uuid :=
  if name.length > 36 then none
  else
    match name.splitOn '-' with
    | [a, b, c, d, e] => do
      let a ← component 32 a
      let b ← component 16 b
      let c ← component 16 c
      let d ← component 16 d
      let e ← component 48 e
      return ⟨UInt64.ofNat ((a * 2 ^ 16 + b) * 2 ^ 16 + c), UInt64.ofNat (d * 2 ^ 48 + e)⟩
    | _ => none

end Uuid

/-- `"%02x"` of each byte. -/
def toHex (bytes : Bytes) : Text := bytes.flatMap fun b => hexText 2 b.toNat

/-- Each pair of characters as `toInt(16).toByte()`; none where it throws. -/
def hexPairs : Text → Option Bytes
  | a :: b :: rest => do
    let n ← Text.toNumberOrNull 32 16 [a, b]
    let bytes ← hexPairs rest
    return UInt8.ofNat (n % 256).toNat :: bytes
  | [_] => none
  | [] => some []

def hexToByteArrayOrNull (s : Text) : Option Bytes := hexPairs (s.filter (· ≠ ' '))

def toBase64Url (bytes : Bytes) : Text := Base64.encodeUnpadded Base64.urlSafe bytes

def base64UrlToByteArrayOrNull (s : Text) : Option Bytes :=
  Base64.decode Base64.urlSafe
    (s.filter fun c => (Base64.value Base64.urlSafe c).isSome || c = '=')

end Anywhere.Link
