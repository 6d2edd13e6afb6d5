import StaticSite.IoError
/-!
# StaticSite.Template.Source

The bodies of templates, layouts and partials, and a cache in front of whatever holds them. A body
is kept from its first successful load on and never loaded again; a load that fails is not
remembered, so a missing partial is asked for again each time.
-/

set_option autoImplicit false

namespace StaticSite

/-- What a body is used as. -/
inductive SourceKind where
  | page
  | layout
  | part
deriving DecidableEq, Inhabited, Repr

/-- The word for a kind. -/
def SourceKind.word : SourceKind → String
  | page => "template"
  | layout => "layout"
  | part => "partial"

/-- A body is known by its kind and its name. -/
abbrev SourceKey := SourceKind × String

/-- Why a body could not be loaded. -/
inductive LoadError where
  | notFound (kind : SourceKind) (name : String)
  | unreadable (kind : SourceKind) (path : String) (cause : IoError)
deriving DecidableEq, Inhabited, Repr

/-- The wording of a failure, given the wording of what went wrong with a file. -/
def LoadError.message (wording : IoError → String) : LoadError → String
  | notFound kind name => kind.word ++ " not found: " ++ name
  | unreadable kind path cause =>
    "failed to read " ++ kind.word ++ " " ++ path ++ ": " ++ wording cause

/-- Where bodies come from. -/
abbrev Loader := SourceKind → String → Except LoadError (List Char)

/-- A reason to leave out an inclusion, or to put nothing in its place. -/
inductive Warning where
  /-- The body could not be loaded. -/
  | missing (name : String) (cause : LoadError)
  /-- The partial is being expanded already; the chain leads from the outermost partial to the
  innermost. -/
  | cycle (name : String) (chain : List String)
  /-- Too many partials are being expanded already. -/
  | tooDeep (name : String)
deriving DecidableEq, Inhabited, Repr

/-- The most partials that may be in expansion at one time. -/
def maxDepth : Nat := 32

/-- The wording of a warning. -/
def Warning.message (wording : IoError → String) : Warning → String
  | missing name cause =>
    "partial " ++ name ++ " not found, removing placeholder (" ++ cause.message wording ++ ")"
  | cycle name chain =>
    "partial " ++ name ++ " includes itself (via " ++ " > ".intercalate chain
      ++ "), dropping the inclusion"
  | tooDeep name =>
    "partial " ++ name ++ " nested deeper than " ++ toString maxDepth ++ " levels, dropping it"

/-- The bodies loaded so far, and what happened on the way. -/
structure Session where
  bodies : List (SourceKey × List Char)
  /-- The keys that the loader was asked for, in order. -/
  loads : List SourceKey
  warnings : List Warning
deriving Inhabited

namespace Session

/-- Nothing loaded yet. -/
def empty : Session := ⟨[], [], []⟩

/-- The body kept for a key. -/
def body? (session : Session) (key : SourceKey) : Option (List Char) := session.bodies.lookup key

/-- Adds a warning. -/
def warn (session : Session) (warning : Warning) : Session :=
  { session with warnings := session.warnings ++ [warning] }

/-- The body of a name: the one kept, or else what the loader gives. -/
def load (loader : Loader) (kind : SourceKind) (name : String) (session : Session) :
    Except LoadError (List Char) × Session :=
  match session.body? (kind, name) with
  | some body => (.ok body, session)
  | none =>
    let session := { session with loads := session.loads ++ [(kind, name)] }
    match loader kind name with
    | .ok body => (.ok body, { session with bodies := ((kind, name), body) :: session.bodies })
    | .error e => (.error e, session)

/-- The body of a partial, which is empty if it cannot be loaded. -/
def loadPart (loader : Loader) (name : String) (session : Session) : List Char × Session :=
  match session.load loader .part name with
  | (.ok body, session) => (body, session)
  | (.error e, session) => ([], session.warn (.missing name e))

/-- The same bodies, with nothing recorded yet. -/
def rested (session : Session) : Session := { session with loads := [], warnings := [] }

end Session

end StaticSite
