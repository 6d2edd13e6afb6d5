import StaticSite.Template.Value
import StaticSite.Text.Split
/-!
# StaticSite.Template.Lookup

Dotted paths. A path is looked up segment by segment, from left to right; at the first falsy value
the walk stops and that value is the answer, so `a.b.c` over `a = 0` is `0` and not null.
-/

set_option autoImplicit false

namespace StaticSite

/-- The segments of a path: what stands between its points. -/
def segments (path : String) : List String :=
  (Text.splitAtEach (· == '.') path.toList).map String.ofList

/-- The position that a key stands for: a natural number below 2⁶⁴ in decimal digits without a
leading zero. -/
def position? (key : String) : Option Nat :=
  match key.toList with
  | [] => none
  | ['0'] => some 0
  | digits =>
    if digits.all Char.isDigit && digits.head? != some '0' then
      let n := digits.foldl (fun n c => n * 10 + (c.toNat - '0'.toNat)) 0
      if n < Nat.pow 2 64 then some n else none
    else none

/-- The number of 16-bit units of a text: two for a character beyond the first 65536. -/
def units16 (s : List Char) : Nat := s.length + s.countP fun c => decide (0x10000 ≤ c.toNat)

namespace Value

/-- What `value` has under `key`: a field of a mapping, an item of a sequence, a character of a
string, or the length of either; null if there is no such thing. -/
def property (value : Value) (key : String) : Value :=
  match value with
  | mapping fields => (Fields.get? fields key).getD null
  | sequence items =>
    if key = "length" then number (.ofNat items.length)
    else ((position? key).bind (items[·]?)).getD null
  | string s =>
    if key = "length" then number (.ofNat (units16 s.toList))
    else
      match (position? key).bind (s.toList[·]?) with
      | some c => string (String.singleton c)
      | none => null
  | _ => null

/-- Follows segments from any value, as long as there is something truthy to follow. -/
def walk (value : Value) : List String → Value
  | [] => value
  | segment :: rest => if value.isTruthy then walk (value.property segment) rest else value

/-- Looks a path up in a context. The empty path finds nothing, and so does every path in a
context that is no sequence or mapping. -/
def resolve (context : Value) (path : String) : Value :=
  if path = "" || !context.isIndexable then null else context.walk (segments path)

end Value

end StaticSite
