import RpcPool.Json.Typed
import RpcPool.Proofs.Rendering

/-!
# Values of a known type and back

The text of a value is read for what it stands for, by a reader that knows its type. Each reader is
taken by itself, in front of whatever may follow a value in an object or at the end of a text.

Results:
1. `reads_string`, `reads_bool`, `reads_uint32`, `reads_uint64`, `reads_map`: the readers one by one.
2. `reads_null`, `Reads.option`: a value that may be null.
3. `reads_record`: a record, from what its members stand for.
4. `Reads.text`: a value as a text of its own.
-/

namespace RpcPool

namespace Json

variable {α β σ : Type}

/-- The text of a value stands for `a` to a reader, whatever comes after it. -/
def Reads (read : Typed α) (v : Json) (a : α) : Prop :=
  ∀ rest : List UInt8, Follows rest → ∀ p, ∃ q,
    read ⟨utf8 v.print ++ rest, p⟩ = .ok (a, ⟨rest, q⟩)

theorem Reads.map {read : Typed α} {v : Json} {a : α} (h : Reads read v a) (f : α → β) :
    Reads (fun c => (read c).map fun r => (f r.1, r.2)) v (f a) := by
  intro rest hrest p
  obtain ⟨q, hq⟩ := h rest hrest p
  exact ⟨q, by simp only [hq, Except.map]⟩

theorem valueStart_cons {b : UInt8} (h : Cursor.isBlank b = false) (rest : List UInt8)
    (p : Position) : valueStart ⟨b :: rest, p⟩ = .ok (b, ⟨b :: rest, p⟩) := by
  simp [valueStart, skipBlanks_cons h, Cursor.peek?]

/-! ## Scalars -/

theorem lift_ok (a : α) : lift (.ok a) = .ok a := rfl

theorem reads_string (s : String) : Reads typedString (.string s) s := by
  intro rest _ p
  obtain ⟨q, hq⟩ := readString_quote s rest p
  have hblank : Cursor.isBlank 34 = false := by decide
  have hbytes : utf8 (print (.string s)) ++ rest =
      34 :: (utf8 (s.toList.flatMap escapeChar) ++ [34] ++ rest) := by
    show utf8 (quote s) ++ rest = _
    rw [utf8_quote]
    rfl
  refine ⟨q, ?_⟩
  have hq' : readString (Cursor.skip ⟨utf8 (print (.string s)) ++ rest, p⟩) = .ok (s, ⟨rest, q⟩) := hq
  rw [hbytes] at hq' ⊢
  simp only [typedString, valueStart_cons hblank, if_true, hq', lift_ok]

theorem reads_bool (b : Bool) : Reads typedBool (.bool b) b := by
  intro rest _ p
  cases b with
  | false => exact ⟨_, rfl⟩
  | true => exact ⟨_, rfl⟩

theorem reads_natural {bound : Nat} {n : UInt64} (expected : String) (hn : n.toNat < bound) :
    Reads (typedNatural bound expected) (.natural n) n.toNat := by
  intro rest hrest p
  obtain ⟨b, more, d, hopens, hdigit⟩ := numeral_opens n.toNat
  obtain ⟨q, hq⟩ := readNumber_numeral n.toNat_lt hrest p false
  have hwhole : wholeNumber false n.toNat = .natural n := by
    simp [wholeNumber]
  have hvalue : Data.natural bound expected (toData (.natural n)) = .ok n.toNat := by
    have hlt : (n.toNat : Int) < bound := Int.ofNat_lt.mpr hn
    simp [toData, Data.natural, hlt]
  have hbytes : utf8 (print (.natural n)) ++ rest = b :: (more ++ rest) := by
    show utf8 (numeral n.toNat) ++ rest = _
    rw [hopens]
    rfl
  refine ⟨q, ?_⟩
  rw [hwhole, hopens, List.cons_append] at hq
  rw [hbytes]
  simp [typedNatural, valueStart_cons (blank_of_digit hdigit), hdigit, hq, hvalue,
    ne_of_digit hdigit (x := 45) (by decide)]

theorem reads_uint32 (n : UInt32) : Reads typedUInt32 (.natural n.toUInt64) n := by
  have h := (reads_natural (n := n.toUInt64) "u32" (by simpa using n.toNat_lt)).map UInt32.ofNat
  have hn : UInt32.ofNat n.toUInt64.toNat = n := by simp
  rw [hn] at h
  exact h

theorem reads_uint64 (n : UInt64) : Reads typedUInt64 (.natural n) n := by
  have h := (reads_natural "u64" n.toNat_lt).map UInt64.ofNat
  rw [UInt64.ofNat_toNat] at h
  exact h

/-! ## Values that may be null -/

theorem reads_null (read : Typed α) : Reads (typedOption read) .null none := by
  intro rest _ p
  exact ⟨_, rfl⟩

/-- The text of a value begins with itself, and not like `null`. -/
def Present (v : Json) : Prop :=
  ∃ b more, utf8 v.print = b :: more ∧ Cursor.isBlank b = false ∧ b ≠ 110

theorem present_string (s : String) : Present (.string s) :=
  ⟨34, _, utf8_quote s, rfl, by decide⟩

theorem present_bool (b : Bool) : Present (.bool b) := by
  cases b with
  | false => exact ⟨102, _, rfl, rfl, by decide⟩
  | true => exact ⟨116, _, rfl, rfl, by decide⟩

theorem present_natural (n : UInt64) : Present (.natural n) := by
  obtain ⟨b, more, d, hopens, hdigit⟩ := numeral_opens n.toNat
  exact ⟨b, more, hopens, blank_of_digit hdigit, ne_of_digit hdigit (by decide)⟩

theorem Reads.option {read : Typed α} {v : Json} {a : α} (h : Reads read v a)
    (hpresent : Present v) : Reads (typedOption read) v (some a) := by
  intro rest hrest p
  obtain ⟨b, more, hbytes, hblank, hb⟩ := hpresent
  obtain ⟨q, hq⟩ := h rest hrest p
  refine ⟨q, ?_⟩
  rw [hbytes, List.cons_append] at hq ⊢
  unfold typedOption
  simp only [skipBlanks_cons hblank, Cursor.peek?, List.head?_cons]
  split
  · next heq => exact absurd (Option.some.inj heq) hb
  · rw [hq]
    rfl

/-! ## Maps -/

theorem length_le_printRest (first : Bool) (members : List (String × Json)) :
    members.length ≤ (utf8 (printRest first members)).length := by
  induction members generalizing first with
  | nil => exact Nat.zero_le _
  | cons m members ih =>
    have hm := length_printRest first m members
    have hrest := ih false
    simp only [List.length_cons]
    omega

/-- The members of an object of strings. -/
def stringsOf (m : List (String × String)) : List (String × Json) := m.map fun a => (a.1, .string a.2)

theorem stringMembers_all (m : List (String × String)) {fuel : Nat} (hfuel : m.length < fuel)
    (first : Bool) (seen : List (String × String)) (rest : List UInt8) (p : Position) :
    ∃ q, stringMembers fuel ⟨utf8 (printRest first (stringsOf m)) ++ 125 :: rest, p⟩ first seen =
      .ok (seen.reverse ++ m, ⟨rest, q⟩) := by
  induction m generalizing fuel first seen p with
  | nil =>
    obtain ⟨less, rfl⟩ : ∃ less, fuel = less + 1 := ⟨fuel - 1, by omega⟩
    refine ⟨Cursor.advance p 125, ?_⟩
    have hend := nextMember_end first rest p
    rw [stringMembers]
    simp [stringsOf, hend, Cursor.skip]
  | cons a m ih =>
    obtain ⟨less, rfl⟩ : ∃ less, fuel = less + 1 := ⟨fuel - 1, by omega⟩
    obtain ⟨q, hnext⟩ :=
      nextMember_member first (a.1, .string a.2) (stringsOf m) (125 :: rest) p
    obtain ⟨after, q₁, hname, hcolon⟩ := readName_quote a.1
      (utf8 (print (.string a.2)) ++ (utf8 (printRest false (stringsOf m)) ++ 125 :: rest)) q
    obtain ⟨q₂, hvalue⟩ := reads_string a.2 _ (follows_printRest (stringsOf m) rest) q₁
    obtain ⟨q₃, hrest⟩ := ih (Nat.lt_of_succ_lt_succ hfuel) false (a :: seen) q₂
    refine ⟨q₃, ?_⟩
    have hcons : stringsOf (a :: m) = (a.1, .string a.2) :: stringsOf m := rfl
    rw [stringMembers, hcons]
    simp only [hnext, hname, hcolon, hvalue, hrest]
    simp

theorem reads_map (m : List (String × String)) : Reads typedMap (.object (stringsOf m)) m := by
  intro rest _ p
  have hblank : Cursor.isBlank 123 = false := by decide
  have hlength : (stringsOf m).length = m.length := List.length_map _
  have hfuel : m.length <
      (123 :: (utf8 (printRest true (stringsOf m)) ++ 125 :: rest)).length + 1 := by
    have hle := length_le_printRest true (stringsOf m)
    simp only [List.length_cons, List.length_append]
    omega
  obtain ⟨q, hq⟩ := stringMembers_all m hfuel true [] rest (Cursor.advance p 123)
  refine ⟨q, ?_⟩
  rw [utf8_object, List.cons_append, List.append_assoc, List.singleton_append]
  simp only [typedMap, valueStart_cons hblank, if_true, Cursor.skip]
  exact hq

/-! ## Records -/

/-- Members that are taken over one after the other lead from one state of a record to another. -/
inductive Sets (r : RecordReader σ α) : List (String × Json) → σ → σ → Prop
  | nil {acc : σ} : Sets r [] acc acc
  | cons {name : String} {v : Json} {members : List (String × Json)} {acc next last : σ} :
      Reads (r.set name acc) v next → Sets r members next last → Sets r ((name, v) :: members) acc last

variable {r : RecordReader σ α} {members more : List (String × Json)} {acc next last : σ}

theorem Sets.append (h : Sets r members acc next) (hmore : Sets r more next last) :
    Sets r (members ++ more) acc last := by
  induction h with
  | nil => exact hmore
  | cons hread _ ih => exact .cons hread (ih hmore)

/-- A member whose value is put into a field. -/
theorem Sets.field {name : String} {read : Typed β} {v : Json} {b : β} (put : β → σ)
    (hset : r.set name acc = fun c => (read c).map fun x => (put x.1, x.2)) (h : Reads read v b) :
    Sets r [(name, v)] acc (put b) := by
  refine .cons ?_ .nil
  rw [hset]
  exact h.map put

/-- The members of a record are read if each has a field of its own. -/
theorem recordMembers_all (h : Sets r members acc last) {seen : List String} {a : α}
    (hfields : ∀ m ∈ members, (r.fields.lookup m.1).isSome = true)
    (hdistinct : (members.map (·.1)).Nodup) (hnew : ∀ m ∈ members, m.1 ∉ seen)
    (hfinish : r.finish ((members.map (·.1)).reverse ++ seen) last = .ok a) {fuel : Nat}
    (hfuel : members.length < fuel) (first : Bool) (rest : List UInt8) (p : Position) :
    ∃ q, recordMembers r fuel ⟨utf8 (printRest first members) ++ 125 :: rest, p⟩ seen first acc =
      .ok (a, ⟨rest, q⟩) := by
  induction h generalizing seen fuel first p with
  | nil =>
    obtain ⟨less, rfl⟩ : ∃ less, fuel = less + 1 := ⟨fuel - 1, by omega⟩
    refine ⟨Cursor.advance p 125, ?_⟩
    have hend := nextMember_end first rest p
    rw [recordMembers]
    simp only [List.map_nil, List.reverse_nil, List.nil_append] at hfinish
    simp [hend, hfinish, Cursor.skip]
  | @cons name v members acc next last hread _ ih =>
    obtain ⟨less, rfl⟩ : ∃ less, fuel = less + 1 := ⟨fuel - 1, by omega⟩
    obtain ⟨hfresh, hdistinct⟩ := List.nodup_cons.mp hdistinct
    obtain ⟨q, hnext⟩ := nextMember_member first (name, v) members (125 :: rest) p
    obtain ⟨after, q₁, hname, hcolon⟩ := readName_quote name
      (utf8 v.print ++ (utf8 (printRest false members) ++ 125 :: rest)) q
    obtain ⟨q₂, hvalue⟩ := hread _ (follows_printRest members rest) q₁
    have hfield : (r.fields.lookup name).isSome = true := hfields (name, v) List.mem_cons_self
    have hseen : seen.contains name = false := by
      simpa using hnew (name, v) List.mem_cons_self
    have hlater : ∀ m ∈ members, m.1 ∉ name :: seen := by
      intro m hm hmem
      rcases List.mem_cons.mp hmem with heq | hmem
      · exact hfresh (List.mem_map.mpr ⟨m, hm, heq⟩)
      · exact hnew m (List.mem_cons_of_mem _ hm) hmem
    obtain ⟨q₃, hrest⟩ := ih
      (fun m hm => hfields m (List.mem_cons_of_mem _ hm)) hdistinct hlater
      (by simpa using hfinish) (Nat.lt_of_succ_lt_succ hfuel) false q₂
    refine ⟨q₃, ?_⟩
    rw [recordMembers]
    simp only [hnext, hname, hcolon, hfield, hseen, hvalue, hrest, Bool.and_false,
      Bool.false_eq_true, if_false, if_true]

/-- A record is read from an object of its fields, none of them twice. -/
theorem reads_record {a : α} (h : Sets r members acc last)
    (hfields : ∀ m ∈ members, (r.fields.lookup m.1).isSome = true)
    (hdistinct : (members.map (·.1)).Nodup)
    (hfinish : r.finish (members.map (·.1)).reverse last = .ok a) :
    Reads (typedRecord r acc) (.object members) a := by
  intro rest _ p
  have hblank : Cursor.isBlank 123 = false := by decide
  have hfuel : members.length <
      (123 :: (utf8 (printRest true members) ++ 125 :: rest)).length + 1 := by
    have hle := length_le_printRest true members
    simp only [List.length_cons, List.length_append]
    omega
  obtain ⟨q, hq⟩ := recordMembers_all h hfields hdistinct (fun _ _ => List.not_mem_nil)
    (by simpa using hfinish) hfuel true rest (Cursor.advance p 123)
  refine ⟨q, ?_⟩
  have hobject : ¬ (123 : UInt8) = 91 := by decide
  rw [utf8_object, List.cons_append, List.append_assoc, List.singleton_append]
  simp only [typedRecord, valueStart_cons hblank, if_true, if_neg hobject, Cursor.skip]
  exact hq

/-! ## Whole texts -/

theorem Reads.text {read : Typed α} {v : Json} {a : α} (h : Reads read v a) :
    readText read v.render = .ok a := by
  have hend : Follows [] := by
    intro b hb
    cases hb
  obtain ⟨q, hq⟩ := h [] hend ⟨1, 0⟩
  rw [List.append_nil] at hq
  rw [readText, render_bytes, Cursor.start, hq]
  rfl

end Json

end RpcPool
