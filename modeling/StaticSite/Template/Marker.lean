import StaticSite.Text.Blank
import StaticSite.Text.Split
/-!
# StaticSite.Template.Marker

Markers: the parts of a template that stand between double braces. White space inside the braces
is insignificant.

* a greater-than sign and a name include a partial; names are made of ASCII letters, digits, `_`
  and `-`;
* `#each` or `#if`, white space and a path open a block, `/each` and `/if` close one;
* a path interpolates a value; two bars after it introduce a fallback, either text in quotes or
  another path. Paths are made of ASCII letters, digits, `_` and `.`.

`Marker.read?` reads the marker at the start of a text. Braces that do not start one of these forms
are ordinary text.
-/

set_option autoImplicit false

namespace StaticSite

/-- What an interpolation shows in place of a falsy value. -/
inductive Fallback where
  /-- Text, written in quotes. -/
  | literal (text : List Char)
  /-- The value of another path. -/
  | path (path : String)
deriving DecidableEq, Inhabited, Repr

/-- A marker. -/
inductive Marker where
  | interpolation (path : String) (fallback : Option Fallback)
  | inclusion (name : String)
  | loopOpen (path : String)
  | loopClose
  | conditionOpen (path : String)
  | conditionClose
deriving DecidableEq, Inhabited, Repr

namespace Marker

/-- ASCII letters and digits. -/
def isAlphanumeric (c : Char) : Bool :=
  ('a' ≤ c && c ≤ 'z') || ('A' ≤ c && c ≤ 'Z') || ('0' ≤ c && c ≤ '9')

/-- The characters of a path. -/
def isPathChar (c : Char) : Bool := isAlphanumeric c || c == '_' || c == '.'

/-- The characters of the name of a partial. -/
def isNameChar (c : Char) : Bool := isAlphanumeric c || c == '_' || c == '-'

/-- The two braces that open a marker. -/
def opening : List Char := ['\x7b', '\x7b']

/-- The two braces that close a marker. -/
def closing : List Char := ['\x7d', '\x7d']

/-- The longest run of characters in a class at the start of the text, if it is not empty, and the
text after it. -/
def takeRun? (isMember : Char → Bool) (s : List Char) : Option (String × List Char) :=
  match s.takeWhile isMember with
  | [] => none
  | run => some (String.ofList run, s.dropWhile isMember)

/-- The path of a block, which white space sets off from the keyword, and the text after it. -/
def readBlockPath? (s : List Char) : Option (String × List Char) :=
  match s with
  | c :: _ => if Text.isBlank c then takeRun? isPathChar (Text.trimStart s) else none
  | [] => none

/-- A fallback, and the text after it. -/
def readFallback? (s : List Char) : Option (Fallback × List Char) :=
  match s with
  | '"' :: rest =>
    (Text.cutAt? ['"'] rest).map fun (literal, rest) => (Fallback.literal literal, rest)
  | _ => (takeRun? isPathChar s).map fun (path, rest) => (Fallback.path path, rest)

/-- An interpolation, from its path up to the white space before the closing braces, and the text
after it. -/
def readInterpolation? (s : List Char) : Option (Marker × List Char) :=
  match takeRun? isPathChar s with
  | none => none
  | some (path, rest) =>
    match Text.trimStart rest with
    | '|' :: '|' :: rest =>
      (readFallback? (Text.trimStart rest)).map fun (fallback, rest) =>
        (interpolation path (some fallback), rest)
    | rest => some (interpolation path none, rest)

/-- What stands between the braces of a marker, white space around it left out, and the text after
it. -/
def readInside? (s : List Char) : Option (Marker × List Char) :=
  match Text.dropStart? ['>'] s with
  | some rest =>
    (takeRun? isNameChar (Text.trimStart rest)).map fun (name, rest) => (inclusion name, rest)
  | none =>
    match Text.dropStart? "#each".toList s with
    | some rest => (readBlockPath? rest).map fun (path, rest) => (loopOpen path, rest)
    | none =>
      match Text.dropStart? "#if".toList s with
      | some rest => (readBlockPath? rest).map fun (path, rest) => (conditionOpen path, rest)
      | none =>
        match Text.dropStart? "/each".toList s with
        | some rest => some (loopClose, rest)
        | none =>
          match Text.dropStart? "/if".toList s with
          | some rest => some (conditionClose, rest)
          | none => readInterpolation? s

/-- The marker at the start of a text, and the text after it. -/
def read? (s : List Char) : Option (Marker × List Char) :=
  match Text.dropStart? opening s with
  | none => none
  | some rest =>
    match readInside? (Text.trimStart rest) with
    | none => none
    | some (marker, rest) =>
      (Text.dropStart? closing (Text.trimStart rest)).map fun rest => (marker, rest)

end Marker

end StaticSite
