/-!
# StaticSite.Text.Decoding

Reading bytes as UTF-8 text, whatever they are. Each longest run of bytes that starts a character
but cannot be completed, and each byte that starts none, is read as U+FFFD.
-/

set_option autoImplicit false

namespace StaticSite.Text

/-- The character in place of bytes that are no text. -/
def replacement : Char := '\ufffd'

/-- The ranges of the bytes that follow the first byte of a character, if it is one. -/
def followers? (lead : Nat) : Option (List (Nat × Nat)) :=
  let any := (0x80, 0xBF)
  if lead < 0x80 then some []
  else if 0xC2 ≤ lead ∧ lead ≤ 0xDF then some [any]
  else if lead = 0xE0 then some [(0xA0, 0xBF), any]
  else if lead = 0xED then some [(0x80, 0x9F), any]
  else if 0xE1 ≤ lead ∧ lead ≤ 0xEF then some [any, any]
  else if lead = 0xF0 then some [(0x90, 0xBF), any, any]
  else if 0xF1 ≤ lead ∧ lead ≤ 0xF3 then some [any, any, any]
  else if lead = 0xF4 then some [(0x80, 0x8F), any, any]
  else none

/-- The bytes that are in the ranges one by one, up to the first that is not. -/
def takeFollowers : List (Nat × Nat) → List UInt8 → List UInt8
  | (least, most) :: ranges, b :: bytes =>
    if least ≤ b.toNat ∧ b.toNat ≤ most then b :: takeFollowers ranges bytes else []
  | _, _ => []

/-- The character of a first byte and all bytes that follow it. -/
def assemble (lead : Nat) (following : List UInt8) : Char :=
  let top := match following.length with
    | 0 => lead
    | 1 => lead % 32
    | 2 => lead % 16
    | _ => lead % 8
  Char.ofNat (following.foldl (fun code b => code * 64 + b.toNat % 64) top)

/-- Reads bytes as text; `fuel` is at least their number. -/
def decodeWith : Nat → List UInt8 → List Char
  | 0, _ | _, [] => []
  | fuel + 1, lead :: bytes =>
    match followers? lead.toNat with
    | none => replacement :: decodeWith fuel bytes
    | some ranges =>
      let following := takeFollowers ranges bytes
      let c := if following.length = ranges.length then assemble lead.toNat following
        else replacement
      c :: decodeWith fuel (bytes.drop following.length)

/-- Reads bytes as text. -/
def decode (bytes : ByteArray) : List Char :=
  match String.fromUTF8? bytes with
  | some text => text.toList
  | none => decodeWith bytes.size bytes.toList

end StaticSite.Text
