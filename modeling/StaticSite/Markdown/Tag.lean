import StaticSite.Markdown.Link
import StaticSite.Text.Case
/-!
# StaticSite.Markdown.Tag

What stands in angle brackets: addresses, and HTML that is kept as it is written. The functions
give the text after what they find. Of a tag that spans lines, the marks of the containers around
it are no part; of all else in angle brackets they are.
-/

set_option autoImplicit false

namespace StaticSite.Markdown

/-- ASCII letters. -/
def isLetter (c : Char) : Bool := ('a' ≤ c && c ≤ 'z') || ('A' ≤ c && c ≤ 'Z')

/-! ### Addresses -/

/-- A complete address with a scheme of 2 to 32 characters, from after the opening bracket. -/
def address? (s : List Char) : Option (List Char × List Char) :=
  let isSchemeChar := fun c => isAlphanumeric c || c == '.' || c == '-' || c == '+'
  let scheme := s.takeWhile isSchemeChar
  match s.dropWhile isSchemeChar with
  | ':' :: rest =>
    if scheme.length < 2 || scheme.length > 32 || !(scheme.head?.any isLetter) then none
    else
      let isPlain := fun (c : Char) => c.toNat > 0x20 && c != '<' && c != '>'
      match rest.dropWhile isPlain with
      | '>' :: after => some (scheme ++ ':' :: rest.takeWhile isPlain, after)
      | _ => none
  | _ => none

/-- The characters of the local part of a mail address. -/
def isMailChar (c : Char) : Bool :=
  isAlphanumeric c || ".!#$%&'*+/=?^_\x60\x7b|\x7d~-".toList.contains c

/-- Whether this is a label of a host name. -/
def isHostLabel (label : List Char) : Bool :=
  !label.isEmpty && label.length ≤ 63 && label.head? != some '-' && label.getLast? != some '-'

/-- A mail address, from after the opening bracket. -/
def mailAddress? (s : List Char) : Option (List Char × List Char) :=
  let name := s.takeWhile isMailChar
  match s.dropWhile isMailChar with
  | '@' :: rest =>
    let isHostChar := fun c => isAlphanumeric c || c == '-' || c == '.'
    let host := rest.takeWhile isHostChar
    match rest.dropWhile isHostChar with
    | '>' :: after =>
      if !name.isEmpty && (Text.splitAtEach (· == '.') host).all isHostLabel then
        some (name ++ '@' :: host, after)
      else none
    | _ => none
  | _ => none

/-! ### HTML -/

/-- White space in a tag. On one line (`multiline` is false) it may not hold a line break. -/
def skipTagSpace (multiline : Bool) (s : List Char) : List Char :=
  s.dropWhile fun c => isInlineSpace c || (multiline && isLineEnd c)

/-- An attribute of a tag, if the text starts with one. -/
def attribute? (multiline : Bool) (s : List Char) : Option (List Char) :=
  match s with
  | c :: rest =>
    if !(isLetter c || c == '_' || c == ':') then none
    else
      let isNameChar := fun c => isAlphanumeric c || c == '_' || c == '.' || c == ':' || c == '-'
      let rest := rest.dropWhile isNameChar
      match skipTagSpace multiline rest with
      | '=' :: after =>
        let quoted := fun (mark : Char) (value : List Char) =>
          match value.dropWhile fun c => c != mark && (multiline || !isLineEnd c) with
          | d :: after => if d == mark then some after else none
          | [] => none
        match skipTagSpace multiline after with
        | '"' :: value => quoted '"' value
        | '\'' :: value => quoted '\'' value
        | value =>
          let isValueChar := fun c => !(" \n\r\"'=<>\x60".toList.contains c)
          if value.head?.any isValueChar then some (value.dropWhile isValueChar) else none
      | _ => some rest
  | [] => none

/-- The attributes of a tag, each after white space, and the end of the tag. -/
def attributes? (multiline : Bool) : Nat → List Char → Option (List Char)
  | 0, _ => none
  | fuel + 1, s =>
    match skipTagSpace multiline s with
    | '>' :: rest => some rest
    | '/' :: '>' :: rest => some rest
    | after =>
      if after.length == s.length then none
      else
        match attribute? multiline after with
        | some rest => attributes? multiline fuel rest
        | none => none

/-- An opening or closing tag, from after the opening bracket. -/
def tag? (multiline : Bool) (s : List Char) : Option (List Char) :=
  let isNameChar := fun c => isAlphanumeric c || c == '-'
  match s with
  | '/' :: rest =>
    if rest.head?.any isLetter then
      match skipSpaces (rest.dropWhile isNameChar) with
      | '>' :: after => some after
      | _ => none
    else none
  | c :: rest =>
    if isLetter c then attributes? multiline (rest.length + 1) (rest.dropWhile isNameChar)
    else none
  | [] => none

/-- The text after the first place where `mark` stands. -/
def afterFirst? (mark : String) (s : List Char) : Option (List Char) :=
  (Text.cutAt? mark.toList s).map Prod.snd

/-- Literal data after its opening mark: it ends at the first closing bracket, and the brackets
there have to be followed by an angle bracket. -/
def literalData? (s : List Char) : Option (List Char) :=
  match (s.dropWhile (· != ']')).dropWhile (· == ']') with
  | '>' :: rest => some rest
  | _ => none

/-- A comment, a declaration, an instruction or literal data, from after the opening bracket. -/
def markup? (s : List Char) : Option (List Char) :=
  match s with
  | '!' :: '-' :: '-' :: rest => afterFirst? "-->" ('-' :: '-' :: rest)
  | '!' :: rest =>
    match Text.dropStart? "[CDATA[".toList rest with
    | some rest => literalData? rest
    | none => if rest.head?.any isLetter then afterFirst? ">" rest else none
  | '?' :: rest => afterFirst? "?>" rest
  | _ => none

/-! ### Blocks of HTML

Some blocks go on until a certain text ends them. Others end at an empty line: they start with the
tag of an element that makes a block, or with a tag that has a line for itself. -/

/-- Elements whose content is not markdown. -/
def rawElements : List String := ["textarea", "pre", "style", "script"]

/-- What ends a block of HTML that starts with this text after the opening bracket, if it is one
that goes on over empty lines. -/
def blockEnd? (s : List Char) : Option String :=
  let raw := rawElements.find? fun name =>
    Text.equalIgnoringCase (s.take name.length) name.toList &&
      (s.drop name.length).head?.all fun c => isSpaceOrBreak c || c == '>'
  match raw with
  | some name => some ("</" ++ name ++ ">")
  | none =>
    if (Text.dropStart? "!--".toList s).isSome then some "-->"
    else if (Text.dropStart? "?".toList s).isSome then some "?>"
    else if (Text.dropStart? "![CDATA[".toList s).isSome then some "]]>"
    else
      match s with
      | '!' :: c :: _ => if isLetter c then some ">" else none
      | _ => none

/-- The elements that start a block of HTML. -/
def blockElements : List String :=
  ["address", "article", "aside", "base", "basefont", "blockquote", "body", "caption", "center",
    "col", "colgroup", "dd", "details", "dialog", "dir", "div", "dl", "dt", "fieldset",
    "figcaption", "figure", "footer", "form", "frame", "frameset", "h1", "h2", "h3", "h4", "h5",
    "h6", "head", "header", "hr", "html", "iframe", "legend", "li", "link", "main", "menu",
    "menuitem", "nav", "noframes", "ol", "optgroup", "option", "p", "param", "search", "section",
    "summary", "table", "tbody", "td", "tfoot", "th", "thead", "title", "tr", "track", "ul"]

/-- Whether a block of HTML that ends at an empty line starts with this text after the opening
bracket, by the name of its element. -/
def startsBlockElement (s : List Char) : Bool :=
  let s := match s with
    | '/' :: rest => rest
    | _ => s
  let name := s.takeWhile isAlphanumeric
  blockElements.any (Text.equalIgnoringCase name ·.toList) &&
    match s.dropWhile isAlphanumeric with
    | [] => true
    | '/' :: '>' :: _ => true
    | c :: _ => c == ' ' || c == '\t' || c == '\n' || c == '>'

/-- Whether a tag is all that stands on a line, after the opening bracket. -/
def isLoneTag (s : List Char) : Bool :=
  match tag? false s with
  | some rest => endsLine rest
  | none => false

end StaticSite.Markdown
