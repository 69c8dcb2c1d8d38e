import Mathlib.Data.List.DropRight
import Mathlib.Data.String.Basic

/-!
# Texts of the environment

Lists in environment variables, whose items stand between commas.
-/

namespace NexusTrade

/-- The characters that `trim` removes. -/
def isWhiteSpace (c : Char) : Bool :=
  (9 ≤ c.toNat && c.toNat ≤ 13) || c.toNat = 32 || c.toNat = 160 || c.toNat = 5760 ||
    (8192 ≤ c.toNat && c.toNat ≤ 8202) || c.toNat = 8232 || c.toNat = 8233 || c.toNat = 8239 || c.toNat = 8287 ||
    c.toNat = 12288 || c.toNat = 65279

/-- `text.split(',').map((entry) => entry.trim())`. -/
def trimmedEntries (text : String) : List String :=
  (text.toList.splitOn ',').map fun entry =>
    String.ofList ((entry.dropWhile isWhiteSpace).rdropWhile isWhiteSpace)

end NexusTrade
