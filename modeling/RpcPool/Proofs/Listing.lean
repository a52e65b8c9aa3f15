import RpcPool.Proofs.Groups
import RpcPool.Proofs.Rendering

/-!
# The listing

A listing puts the current connection first, then those that are online, then those of higher
precedence, and goes by the bytes of the URI in the end. Texts are compared character by character
when a listing is made; their UTF-8 gives the same order.

Results:
1. `bytes_lt_iff`: of two texts the one with the smaller bytes has the smaller characters.
2. `listingOrder_lt_iff`: the comparison of two connections is `ListedBefore`.
3. `listing_canonical`: among connections with URIs of their own that is a strict total order, and a
   listing depends on the connections alone, not on the order in which they are given.
-/

namespace RpcPool

namespace Text

open Json

/-! ## The order of texts by bytes -/

theorem octet_lt_iff {m n : Nat} (hm : m < 256) (hn : n < 256) {xs ys : List UInt8} :
    UInt8.ofNat m :: xs < UInt8.ofNat n :: ys ↔ m < n ∨ m = n ∧ xs < ys := by
  have equal : UInt8.ofNat m = UInt8.ofNat n ↔ m = n := by
    constructor
    · intro h
      have values := congrArg UInt8.toNat h
      rwa [UInt8.toNat_ofNat_of_lt' hm, UInt8.toNat_ofNat_of_lt' hn] at values
    · intro h
      rw [h]
  rw [List.cons_lt_cons_iff, UInt8.ofNat_lt_iff_lt hm hn, equal]

/-- Of two numbers the smaller one has the smaller digit to base 64 where they first differ. -/
theorem digits_lt {v w : Nat} (h : v < w) :
    v / 262144 < w / 262144 ∨ v / 262144 = w / 262144 ∧
      (v / 4096 % 64 < w / 4096 % 64 ∨ v / 4096 % 64 = w / 4096 % 64 ∧
        (v / 64 % 64 < w / 64 % 64 ∨ v / 64 % 64 = w / 64 % 64 ∧ v % 64 < w % 64)) := by
  have step : ∀ {m n : Nat}, m < n → m / 64 < n / 64 ∨ m / 64 = n / 64 ∧ m % 64 < n % 64 := by
    intro m n hmn
    omega
  have two : ∀ n : Nat, n / 64 / 64 = n / 4096 := fun n => Nat.div_div_eq_div_mul n 64 64
  have three : ∀ n : Nat, n / 4096 / 64 = n / 262144 := fun n => Nat.div_div_eq_div_mul n 4096 64
  rcases step h with hlt | ⟨heq, hlt⟩
  · rcases step hlt with hlt | ⟨heq, hlt⟩
    · rw [two, two] at hlt
      rcases step hlt with hlt | ⟨heq, hlt⟩
      · rw [three, three] at hlt
        exact Or.inl hlt
      · rw [three, three] at heq
        exact Or.inr ⟨heq, Or.inl hlt⟩
    · rw [two, two] at heq
      rw [← three, ← three, heq]
      exact Or.inr ⟨rfl, Or.inr ⟨rfl, Or.inl hlt⟩⟩
  · rw [← three, ← three, ← two, ← two, heq]
    exact Or.inr ⟨rfl, Or.inr ⟨rfl, Or.inr ⟨rfl, hlt⟩⟩⟩

/-- The smaller of two characters has the smaller octets, whatever follows them. -/
theorem utf8EncodeChar_lt {c d : Char} (h : c < d) (xs ys : List UInt8) :
    String.utf8EncodeChar c ++ xs < String.utf8EncodeChar d ++ ys := by
  have hlt : c.val.toNat < d.val.toNat := h
  have hd : d.val.toNat < 0x110000 := by
    rcases d.valid with low | high
    · omega
    · omega
  unfold String.utf8EncodeChar
  dsimp only
  generalize c.val.toNat = v at hlt ⊢
  generalize d.val.toNat = w at hlt hd ⊢
  have digits := digits_lt hlt
  have leadV : v / 262144 % 8 = v / 262144 := Nat.mod_eq_of_lt (by omega)
  have leadW : w / 262144 % 8 = w / 262144 := Nat.mod_eq_of_lt (by omega)
  -- of different lengths the first octets differ, of one length the digits decide
  split_ifs
  all_goals simp only [List.cons_append, List.nil_append]
  all_goals repeat' rw [octet_lt_iff (by omega) (by omega)]
  all_goals omega

theorem utf8_lt {cs ds : List Char} (h : cs < ds) : utf8 cs < utf8 ds := by
  induction cs generalizing ds with
  | nil =>
    cases ds with
    | nil => exact absurd h (List.lt_irrefl _)
    | cons d ds =>
      cases hd : utf8 (d :: ds) with
      | nil =>
        have some : String.utf8EncodeChar d ≠ [] := String.utf8EncodeChar_ne_nil
        exact absurd (List.append_eq_nil_iff.mp hd).1 some
      | cons b bs => exact List.nil_lt_cons b bs
  | cons c cs ih =>
    cases ds with
    | nil => exact absurd h (List.not_lt_nil _)
    | cons d ds =>
      show String.utf8EncodeChar c ++ utf8 cs < String.utf8EncodeChar d ++ utf8 ds
      rcases List.cons_lt_cons_iff.mp h with hlt | ⟨rfl, hlt⟩
      · exact utf8EncodeChar_lt hlt _ _
      · exact List.append_left_lt (ih hlt)

theorem bytes_lt_iff {s t : String} : s.toUTF8.toList < t.toUTF8.toList ↔ s < t := by
  rw [toUTF8_toList, toUTF8_toList, String.lt_iff]
  constructor
  · intro h
    rcases Std.lt_trichotomy s.toList t.toList with hlt | heq | hgt
    · exact hlt
    · rw [heq] at h
      exact absurd h (List.lt_irrefl _)
    · exact absurd h (List.lt_asymm (utf8_lt hgt))
  · exact utf8_lt

theorem compare_lt_iff {s t : String} :
    compare s t = .lt ↔ s.toUTF8.toList < t.toUTF8.toList := by
  rw [bytes_lt_iff]
  exact compareOfLessAndEq_eq_lt

end Text

namespace Selection

variable {health : InstanceId → Health} {current : Option Connection} {cs ds : List Connection}
  {a b c : Connection}

/-! ## The order of connections -/

/-- What puts one connection before another in a listing: the first of these that tells them
apart. -/
inductive ListedBefore (health : InstanceId → Health) (current : Option Connection)
    (a b : Connection) : Prop
  | current : isCurrent current a = true → isCurrent current b = false →
      ListedBefore health current a b
  | online : isCurrent current a = isCurrent current b →
      (health a.id).online = .yes → (health b.id).online ≠ .yes → ListedBefore health current a b
  | precedence : isCurrent current a = isCurrent current b →
      ((health a.id).online = .yes ↔ (health b.id).online = .yes) →
      Outranks a.priority b.priority → ListedBefore health current a b
  | uri : isCurrent current a = isCurrent current b →
      ((health a.id).online = .yes ↔ (health b.id).online = .yes) →
      a.priority = b.priority → a.uri.toUTF8.toList < b.uri.toUTF8.toList →
      ListedBefore health current a b

theorem flagOrder_lt {p q : Bool} : flagOrder p q = .lt ↔ p = true ∧ q = false := by
  revert p q
  decide

theorem flagOrder_eq {p q : Bool} : flagOrder p q = .eq ↔ p = q := by
  revert p q
  decide

theorem isYes_iff {o : Observation} : o.isYes = true ↔ o = .yes := beq_iff_eq

theorem isYes_eq_iff {o u : Observation} : o.isYes = u.isYes ↔ (o = .yes ↔ u = .yes) := by
  rw [Bool.eq_iff_iff, isYes_iff, isYes_iff]

theorem listingOrder_lt_iff :
    listingOrder health current a b = .lt ↔ ListedBefore health current a b := by
  unfold listingOrder
  rw [Ordering.then_eq_lt, Ordering.then_eq_lt, Ordering.then_eq_lt, flagOrder_lt, flagOrder_eq,
    flagOrder_lt, flagOrder_eq, isYes_iff, isYes_eq_iff, comparePriority_lt, comparePriority_eq_eq,
    Text.compare_lt_iff, ← outranks_iff]
  constructor
  · rintro (⟨ha, hb⟩ | ⟨same, ⟨ha, hb⟩ | ⟨alike, higher | ⟨level, lower⟩⟩⟩)
    · exact .current ha hb
    · exact .online same ha fun yes => by simp [isYes_iff.mpr yes] at hb
    · exact .precedence same alike higher
    · exact .uri same alike level.symm lower
  · intro h
    cases h with
    | current ha hb => exact Or.inl ⟨ha, hb⟩
    | online same ha hb =>
      exact Or.inr ⟨same, Or.inl ⟨ha, Bool.eq_false_iff.mpr (mt isYes_iff.mp hb)⟩⟩
    | precedence same alike higher => exact Or.inr ⟨same, Or.inr ⟨alike, Or.inl higher⟩⟩
    | uri same alike level lower =>
      exact Or.inr ⟨same, Or.inr ⟨alike, Or.inr ⟨level.symm, lower⟩⟩⟩

/-- A comparison by one key after the other. -/
theorem listingOrder_eq :
    listingOrder health current =
      compareLex (fun a b => compareOn (isCurrent current) b a)
        (compareLex (fun a b => compareOn (fun c => (health c.id).online.isYes) b a)
          (compareLex (fun a b => compareOn (·.priority) b a) (compareOn (·.uri)))) := by
  funext a b
  unfold listingOrder
  rw [comparePriority_eq]
  rfl

instance : Std.TransCmp (listingOrder health current) := by
  rw [listingOrder_eq]
  infer_instance

theorem uri_eq_of_listingOrder (h : listingOrder health current a b = .eq) : a.uri = b.uri := by
  unfold listingOrder at h
  rw [Ordering.then_eq_eq, Ordering.then_eq_eq, Ordering.then_eq_eq] at h
  exact Std.LawfulEqCmp.compare_eq_iff_eq.mp h.2.2.2

theorem ListedBefore.irrefl (a : Connection) : ¬ ListedBefore health current a a := by
  intro h
  have equal : listingOrder health current a a = .eq := Std.ReflCmp.compare_self
  exact nomatch equal.symm.trans (listingOrder_lt_iff.mpr h)

theorem ListedBefore.trans (hab : ListedBefore health current a b)
    (hbc : ListedBefore health current b c) : ListedBefore health current a c :=
  listingOrder_lt_iff.mp
    (Std.TransCmp.lt_trans (listingOrder_lt_iff.mpr hab) (listingOrder_lt_iff.mpr hbc))

theorem listedBefore_of_isLE (h : (listingOrder health current a b).isLE = true)
    (apart : a.uri ≠ b.uri) : ListedBefore health current a b := by
  cases order : listingOrder health current a b with
  | lt => exact listingOrder_lt_iff.mp order
  | eq => exact absurd (uri_eq_of_listingOrder order) apart
  | gt =>
    rw [order] at h
    exact nomatch h

theorem listingOrder_total (health : InstanceId → Health) (current : Option Connection)
    (a b : Connection) :
    ((listingOrder health current a b).isLE || (listingOrder health current b a).isLE) = true := by
  have swap : listingOrder health current b a = (listingOrder health current a b).swap :=
    Std.OrientedCmp.eq_swap
  rw [swap]
  cases listingOrder health current a b <;> rfl

/-- Of two connections with different URIs one comes before the other. -/
theorem ListedBefore.total (apart : a.uri ≠ b.uri) :
    ListedBefore health current a b ∨ ListedBefore health current b a := by
  rcases Bool.or_eq_true_iff.mp (listingOrder_total health current a b) with hab | hba
  · exact Or.inl (listedBefore_of_isLE hab apart)
  · exact Or.inr (listedBefore_of_isLE hba (Ne.symm apart))

/-! ## The listing -/

theorem listing_perm (health : InstanceId → Health) (current : Option Connection)
    (cs : List Connection) : (listing health current cs).Perm cs :=
  List.mergeSort_perm cs _

/-- Connections with URIs of their own are listed in strict order. -/
theorem listing_ordered (distinct : (cs.map (·.uri)).Nodup) :
    (listing health current cs).Pairwise (ListedBefore health current) := by
  have sorted : (listing health current cs).Pairwise
      fun a b => (listingOrder health current a b).isLE = true :=
    List.pairwise_mergeSort (fun _ _ _ => Std.TransCmp.isLE_trans)
      (listingOrder_total health current) cs
  have uris : ((listing health current cs).map (·.uri)).Nodup :=
    ((listing_perm health current cs).map (·.uri)).nodup_iff.mpr distinct
  have apart : (listing health current cs).Pairwise fun a b => a.uri ≠ b.uri :=
    List.pairwise_map.mp uris
  exact (sorted.and apart).imp fun h => listedBefore_of_isLE h.1 h.2

/-- A list in strict order is the only such arrangement of its members. -/
theorem eq_of_listedBefore (hcs : cs.Pairwise (ListedBefore health current))
    (hds : ds.Pairwise (ListedBefore health current)) (perm : cs.Perm ds) : cs = ds := by
  refine List.Perm.eq_of_pairwise ?_ hcs hds perm
  intro a b _ _ hab hba
  exact absurd (hab.trans hba) (ListedBefore.irrefl a)

/-- Among connections with URIs of their own, whichever is current and whatever their health,
`ListedBefore` is a strict total order. The listing puts all of them, each once, in this order, and
whoever is given the same connections in another order gets the same listing. -/
theorem listing_canonical (distinct : (cs.map (·.uri)).Nodup) :
    ((∀ a, ¬ ListedBefore health current a a) ∧
      (∀ a b c, ListedBefore health current a b → ListedBefore health current b c →
        ListedBefore health current a c) ∧
      ∀ a ∈ cs, ∀ b ∈ cs, a ≠ b →
        ListedBefore health current a b ∨ ListedBefore health current b a) ∧
    (listing health current cs).Perm cs ∧
    (listing health current cs).Pairwise (ListedBefore health current) ∧
    ∀ ds, ds.Perm cs → listing health current ds = listing health current cs := by
  refine ⟨⟨ListedBefore.irrefl, fun a b c => ListedBefore.trans, ?_⟩,
    listing_perm health current cs, listing_ordered distinct, ?_⟩
  · intro a ha b hb hne
    exact ListedBefore.total fun uris => hne (List.inj_on_of_nodup_map distinct ha hb uris)
  · intro ds perm
    have others : (ds.map (·.uri)).Nodup := (perm.map (·.uri)).nodup_iff.mpr distinct
    exact eq_of_listedBefore (listing_ordered others) (listing_ordered distinct)
      ((listing_perm health current ds).trans (perm.trans (listing_perm health current cs).symm))

/-- A node that is current but offline and unranked, a ranked one, two unranked ones whose order
depends on the encoding, and a highly ranked one that is offline. -/
def arranged : List Connection :=
  [⟨4, { uri := "node" }⟩, ⟨3, { uri := "m", priority := 1 }⟩, ⟨1, { uri := "\uFFFD" }⟩,
    ⟨0, { uri := "😀" }⟩, ⟨2, { uri := "a", priority := 9 }⟩]

/-- The connections 0, 1 and 3 have answered. -/
def answering (id : InstanceId) : Health :=
  if id = 2 ∨ id = 4 then .unprobed else Health.unprobed.observe (.ok ⟨true, .ofMillis 5⟩)

/-- Registered backwards they are listed in the same order. -/
theorem arranged_listed :
    ((arranged.reverse).map (·.uri)).Nodup ∧
      arranged.Pairwise (ListedBefore answering (some ⟨4, { uri := "node" }⟩)) ∧
      listing answering (some ⟨4, { uri := "node" }⟩) arranged.reverse = arranged := by
  have distinct : ((arranged.reverse).map (·.uri)).Nodup := by decide
  obtain ⟨_, _, ordered, canonical⟩ :=
    @listing_canonical answering (some ⟨4, { uri := "node" }⟩) arranged.reverse distinct
  have stays : listing answering (some ⟨4, { uri := "node" }⟩) arranged = arranged :=
    List.mergeSort_of_pairwise (by decide +kernel)
  have backwards : listing answering (some ⟨4, { uri := "node" }⟩) arranged.reverse = arranged :=
    (canonical arranged (List.reverse_perm arranged).symm).symm.trans stays
  exact ⟨distinct, backwards ▸ ordered, backwards⟩

end Selection

end RpcPool
