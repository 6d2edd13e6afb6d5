/-!
# StaticSite.Text.Split

Cutting texts apart: at every separator, at the first occurrence of a word, after a given start.
-/

set_option autoImplicit false

namespace StaticSite.Text

/-- The pieces between separators: one more than there are separators. -/
def splitAtEach (isSeparator : Char → Bool) : List Char → List (List Char)
  | [] => [[]]
  | c :: rest =>
    if isSeparator c then [] :: splitAtEach isSeparator rest
    else
      match splitAtEach isSeparator rest with
      | [] => [[c]]
      | piece :: pieces => (c :: piece) :: pieces

/-- The pieces, in order, with `glue` between two. -/
def join (glue : List Char) : List (List Char) → List Char
  | [] => []
  | [piece] => piece
  | piece :: pieces => piece ++ glue ++ join glue pieces

/-- The text after `start`, if the text starts with it. -/
def dropStart? (start s : List Char) : Option (List Char) :=
  match start, s with
  | [], s => some s
  | c :: start, d :: s => if c = d then dropStart? start s else none
  | _ :: _, [] => none

/-- The text before and the text after the first occurrence of `word`. -/
def cutAt? (word : List Char) : List Char → Option (List Char × List Char)
  | [] => (dropStart? word []).map ([], ·)
  | c :: rest =>
    match dropStart? word (c :: rest) with
    | some after => some ([], after)
    | none => (cutAt? word rest).map fun (before, after) => (c :: before, after)

/-- The text with every occurrence of `word`, from the left and without overlaps, replaced. -/
def replaceAll (word replacement : List Char) (s : List Char) : List Char :=
  match word with
  | [] => s
  | w :: ws => go w ws replacement s.length s
where
  /-- One replacement after the other; `fuel` bounds the characters read. -/
  go (w : Char) (ws replacement : List Char) : Nat → List Char → List Char
    | 0, s => s
    | _, [] => []
    | fuel + 1, c :: rest =>
      match dropStart? (w :: ws) (c :: rest) with
      | some after => replacement ++ go w ws replacement fuel after
      | none => c :: go w ws replacement fuel rest

end StaticSite.Text
