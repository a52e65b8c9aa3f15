/-!
# Letters

In small letters, a text differs from what it was only in its capital letters, and these are those of
ASCII.
-/

namespace RpcPool

namespace Text

def capitals : List Char := "ABCDEFGHIJKLMNOPQRSTUVWXYZ".toList

/-- What is checked of every character of a text. -/
theorem forall_of_all {p : Char → Prop} [DecidablePred p] {cs : List Char}
    (h : (cs.all fun c => p c) = true) : ∀ c ∈ cs, p c := fun c hc =>
  of_decide_eq_true (List.all_eq_true.mp h c hc)

theorem toLower_cases (c : Char) : c.toLower = c ∨ c ∈ capitals := by
  have hletters : ∀ n < 26, Char.ofNat (65 + n) ∈ capitals := by decide
  by_cases hc : c.val ≥ 'A'.val ∧ c.val ≤ 'Z'.val
  · right
    have hlow : 65 ≤ c.toNat := hc.1
    have hhigh : c.toNat ≤ 90 := hc.2
    have hmem := hletters (c.toNat - 65) (by omega)
    rwa [Nat.add_sub_cancel' hlow, Char.ofNat_toNat] at hmem
  · exact Or.inl (dif_neg hc)

end Text

end RpcPool
