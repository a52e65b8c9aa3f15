/-!
# Pieces of a text

A text cut at every character of some kind. There is always one piece more than there are cuts, so the
pieces may be empty.
-/

namespace RpcPool

namespace Text

def pieces (isCut : Char → Bool) : List Char → List (List Char)
  | [] => [[]]
  | c :: rest =>
    if isCut c then [] :: pieces isCut rest
    else
      match pieces isCut rest with
      | [] => [[c]]
      | piece :: more => (c :: piece) :: more

theorem pieces_ne_nil (isCut : Char → Bool) (cs : List Char) : pieces isCut cs ≠ [] := by
  cases cs with
  | nil => simp [pieces]
  | cons c rest =>
    simp only [pieces]
    split
    · simp
    · split <;> simp

/-- No piece holds a character at which the text is cut. -/
theorem not_isCut_of_mem_pieces {isCut : Char → Bool} {cs piece : List Char}
    (h : piece ∈ pieces isCut cs) : ∀ c ∈ piece, isCut c = false := by
  induction cs generalizing piece with
  | nil => simp_all [pieces]
  | cons c rest ih =>
    simp only [pieces] at h
    split at h
    · cases h with
      | head => simp
      | tail _ h => exact ih h
    · rename_i hc
      split at h
      · simp_all
      · rename_i p more hp
        cases h with
        | head =>
          intro d hd
          cases hd with
          | head => simpa using hc
          | tail _ hd => exact ih (by rw [hp]; exact .head _) d hd
        | tail _ h => exact ih (by rw [hp]; exact .tail _ h)

/-- A piece reaches up to the first cut. -/
theorem pieces_append {isCut : Char → Bool} {cs : List Char} (h : ∀ c ∈ cs, isCut c = false) {cut : Char}
    (hcut : isCut cut = true) (rest : List Char) :
    pieces isCut (cs ++ cut :: rest) = cs :: pieces isCut rest := by
  induction cs with
  | nil => simp [pieces, hcut]
  | cons c cs ih => simp [pieces, h c List.mem_cons_self, ih fun d hd => h d (List.mem_cons_of_mem c hd)]

theorem pieces_whole {isCut : Char → Bool} {cs : List Char} (h : ∀ c ∈ cs, isCut c = false) :
    pieces isCut cs = [cs] := by
  induction cs with
  | nil => rfl
  | cons c cs ih => simp [pieces, h c List.mem_cons_self, ih fun d hd => h d (List.mem_cons_of_mem c hd)]

end Text

end RpcPool
