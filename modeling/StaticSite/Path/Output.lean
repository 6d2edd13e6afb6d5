import StaticSite.Path.Basic
/-!
# StaticSite.Path.Output

Where the page of an address is written. An address whose last part has an extension names a file;
any other names a directory with an index page.
-/

set_option autoImplicit false

namespace StaticSite.Path

/-- The file that shows a directory. -/
def indexPage : Path := ofString "index.html"

/-- The output file of an address. -/
def output (dir : Path) (address : List Char) : Path :=
  let address : Path := ⟨address.dropWhile (· == '/')⟩
  if address.chars = [] then dir.join indexPage
  else if address.extension?.isSome then dir.join address
  else (dir.join address).join indexPage

end StaticSite.Path
