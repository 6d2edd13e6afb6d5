/-!
# StaticSite.Markdown.Extension

The extensions of markdown that a site may use, by name. All are known; the first unknown name in a
list is an error.
-/

set_option autoImplicit false

namespace StaticSite.Markdown

/-- Which extensions are in use. -/
structure Extensions where
  /-- Terms and what they mean. -/
  definitionLists : Bool := false
  footnotes : Bool := false
  /-- Quotes that are alerts. -/
  alerts : Bool := false
  /-- Names, classes and other attributes of headings. -/
  headingAttributes : Bool := false
  strikethrough : Bool := false
  tables : Bool := false
  /-- Items that are tasks. -/
  taskLists : Bool := false
deriving DecidableEq, Repr, Inhabited

namespace Extensions

/-- Adds the extension called `name`, if there is one. -/
def add? (extensions : Extensions) (name : String) : Option Extensions :=
  match name with
  | "definition_lists" => some { extensions with definitionLists := true }
  | "footnotes" => some { extensions with footnotes := true }
  | "gfm" => some { extensions with alerts := true }
  | "heading_attributes" => some { extensions with headingAttributes := true }
  | "strikethrough" => some { extensions with strikethrough := true }
  | "tables" => some { extensions with tables := true }
  | "tasklists" => some { extensions with taskLists := true }
  | _ => none

/-- The extensions with these names, or the first name that is unknown. -/
def ofNames (names : List String) : Except String Extensions :=
  names.foldlM (fun extensions name =>
    match extensions.add? name with
    | some extensions => .ok extensions
    | none => .error name) {}

end Extensions

end StaticSite.Markdown
