import Mathlib.Data.List.Basic

/-! # Ordered rule lists

The first rule that applies gives the verdict of a list of rules; a list without such a rule
has none and leaves the decision to a default.
-/
namespace EasyConnection.Ruleset
variable {ρ ν : Type*} (applies : ρ → Bool) (verdict : ρ → ν)

def firstMatch (rules : List ρ) : Option ν := (rules.find? applies).map verdict

@[simp] theorem firstMatch_nil : firstMatch applies verdict [] = none := rfl

theorem firstMatch_cons (r : ρ) (rules : List ρ) :
    firstMatch applies verdict (r :: rules) =
      if applies r then some (verdict r) else firstMatch applies verdict rules := by
  cases h : applies r <;> simp [firstMatch, h]

theorem firstMatch_append (rules rest : List ρ) :
    firstMatch applies verdict (rules ++ rest) =
      (firstMatch applies verdict rules).or (firstMatch applies verdict rest) := by
  rw [firstMatch, List.find?_append, Option.map_or]
  rfl

/-- Rules that agree on their verdict are one rule with several conditions. -/
theorem firstMatch_uniform {rules : List ρ} {v : ν} (h : ∀ r ∈ rules, verdict r = v) :
    firstMatch applies verdict rules = if rules.any applies then some v else none := by
  induction rules with
  | nil => rfl
  | cons r rules ih =>
    have htail := ih (fun r' hr' => h r' (List.mem_cons_of_mem r hr'))
    rw [firstMatch_cons, htail, h r List.mem_cons_self, List.any_cons]
    cases applies r <;> simp

end EasyConnection.Ruleset
