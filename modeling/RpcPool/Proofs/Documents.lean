import Mathlib.Data.List.Nodup
import RpcPool.Proofs.Values

/-!
# Written documents

A document is written with the plain values of a table first and a section for every table below it. The
lines of a section only ever touch the table of its header, so what has been read of a document is a
table in a place: the table that the current section fills, inside its parents.

Results:
1. `reads_line`, `reads_header`: what one line does to a document under construction.
2. `modifyAt_plug`, `start_plug`, `finish_plug`: a header finds the place of its section.
3. `reads_lines`, `reads_sections`, `reads_entries`: what the lines and the sections of a table do.
4. `parse?_print`: a written document is read as what it says, in some order of its entries.
-/

namespace RpcPool

namespace Toml

/-! ## Paths -/

theorem head_pathText (path : List String) (k : String) :
    ∃ c more, pathText (path ++ [k]) = c :: more ∧ (isKeyChar c = true ∨ c = '"' ∨ c = '\'') := by
  cases path with
  | nil =>
    obtain ⟨c, more, hcons, hc⟩ := head_key k
    exact ⟨c, more, by simpa [pathText, List.intercalate] using hcons, hc⟩
  | cons j path =>
    obtain ⟨c, more, hcons, hc⟩ := head_key j
    exact ⟨c, _, by rw [List.cons_append, pathText_cons j (by simp), hcons]; rfl, hc⟩

theorem length_le_pathText (path : List String) (k : String) :
    path.length ≤ (pathText (path ++ [k])).length := by
  induction path with
  | nil => exact Nat.zero_le _
  | cons j path ih =>
    rw [List.cons_append, pathText_cons j (by simp)]
    simp only [List.length_append, List.length_cons]
    omega

/-! ## Lines -/

/-- The line of a key and its value. -/
def line (k : String) (d : Data) : List Char := key k ++ " = ".toList ++ value d ++ ['\n']

theorem opening_plain {d : Data} (h : Plain d) : Opening (value d) := by
  cases h with
  | scalar hd => exact opening_scalar hd
  | @list elements _ =>
    unfold value
    split
    · exact ⟨'[', _, rfl, by decide⟩
    · exact ⟨'[', _, rfl, by decide⟩

theorem not_section_of_plain {d : Data} (h : Plain d) : isSection d = false := by
  cases h with
  | scalar hd => cases hd <;> rfl
  | @list elements hscalar =>
    cases elements with
    | nil => rfl
    | cons d rest =>
      have htable : isTable d = false := by cases hscalar d List.mem_cons_self <;> rfl
      simp [isSection, htable]

/-- The line of a plain value adds the value to the section. -/
theorem line?_line (k : String) {d : Data} (h : Plain d) (rest : List Char) (draft : Draft) :
    line? (line k d ++ rest) draft =
      (draft.set [] k (plainNode d)).map fun t => (t, '\n' :: rest) := by
  obtain ⟨after, hafter⟩ : ∃ after, after = value d ++ '\n' :: rest := ⟨_, rfl⟩
  have htext : line k d ++ rest = pathText ([] ++ [k]) ++ (' ' :: '=' :: ' ' :: after) := by
    simp [line, pathText, List.intercalate, hafter]
  have hends : EndsKey (' ' :: '=' :: ' ' :: after) := by
    rintro c ⟨⟩
    decide
  have hequals : skipSpaces (' ' :: '=' :: ' ' :: after) = '=' :: ' ' :: after := rfl
  have hfuel : ([] : List String).length < (line k d ++ rest).length + 1 := Nat.succ_pos _
  have hkey := key?_path [] k hends (by simp [hequals]) hfuel
  have hvalue : skipSpaces (' ' :: after) = value d ++ '\n' :: rest := by
    rw [hafter]
    exact skipSpaces_opening ((opening_plain h).append _)
  have hlength : (value d).length + 1 < 2 * (' ' :: after).length + 2 := by
    simp only [hafter, List.length_cons, List.length_append]
    omega
  have hclosing : Closing ('\n' :: rest) := ⟨'\n', rest, rfl, Or.inl rfl⟩
  have hread := value?_plain h hclosing 79 hlength
  rw [htext] at hkey ⊢
  unfold line?
  rw [hkey, hequals]
  simp only
  rw [hvalue]
  unfold depthLimit
  rw [hread]

/-- A text takes a draft to another one, whatever comes after it. -/
def Reads (text : List Char) (d d' : Draft) : Prop :=
  ∃ n ≤ text.length, ∀ fuel rest, lines? (fuel + n) (text ++ rest) d = lines? fuel rest d'

theorem Reads.refl (d : Draft) : Reads [] d d := ⟨0, Nat.le_refl 0, fun _ _ => rfl⟩

theorem Reads.append {text text' : List Char} {d d' d'' : Draft} (h : Reads text d d')
    (h' : Reads text' d' d'') : Reads (text ++ text') d d'' := by
  obtain ⟨n, hn, hread⟩ := h
  obtain ⟨n', hn', hread'⟩ := h'
  refine ⟨n' + n, by rw [List.length_append]; omega, fun fuel rest => ?_⟩
  rw [← Nat.add_assoc, List.append_assoc, hread, hread']

theorem reads_line {k : String} {v : Data} {d d' : Draft} (h : Plain v)
    (hset : d.set [] k (plainNode v) = some d') : Reads (line k v) d d' := by
  refine ⟨1, by simp only [line, List.length_append, List.length_singleton]; omega,
    fun fuel rest => ?_⟩
  obtain ⟨c, more, hcons, hc⟩ := head_key k
  have hkey : c ∉ ['[', '#', '\n', '\r'] := by
    intro hmem
    simp only [List.mem_cons, List.not_mem_nil, or_false] at hmem
    rcases hmem with rfl | rfl | rfl | rfl <;> exact absurd hc (by decide)
  simp only [List.mem_cons, List.not_mem_nil, or_false, not_or] at hkey
  obtain ⟨hbracket, hhash, hnewline, hreturn⟩ := hkey
  have hline := line?_line k h rest d
  have hskip : skipSpaces (line k v ++ rest) = line k v ++ rest := by
    simp only [line, List.append_assoc, skipSpaces_key]
  obtain ⟨tail, hhead⟩ : ∃ tail, line k v ++ rest = c :: tail := ⟨_, by simp only [line, hcons]; rfl⟩
  rw [hset, Option.map_some, hhead] at hline
  rw [hhead] at hskip ⊢
  have hend : endLine? ('\n' :: rest) = some rest := rfl
  conv => lhs; unfold lines?
  simp [hskip, hhash, hnewline, hreturn, hline, hend]

/-- The brackets around a header: two of each for one more table of an array. -/
def opening (isArray : Bool) : List Char := if isArray then "[[".toList else "[".toList

def closing (isArray : Bool) : List Char := if isArray then "]]".toList else "]".toList

/-- The text of a header: an empty line, and a line of its own. -/
def headerText (h : Header) : List Char :=
  '\n' :: opening h.isArray ++ pathText (h.path ++ [h.key]) ++ closing h.isArray ++ ['\n']

theorem key?_header (path : List String) (k : String) {text rest : List Char}
    (htext : text = pathText (path ++ [k]) ++ ']' :: rest) :
    key? (text.length + 1) text = some ((path, k), ']' :: rest) := by
  have hends : EndsKey (']' :: rest) := by
    rintro c ⟨⟩
    decide
  have hskip : skipSpaces (']' :: rest) = ']' :: rest := rfl
  have hfuel : path.length < text.length + 1 := by
    have hlength := length_le_pathText path k
    simp only [htext, List.length_append]
    omega
  rw [htext] at hfuel ⊢
  rw [key?_path path k hends (by simp [hskip]) hfuel, hskip]

/-- What is read of a header after its first bracket. -/
theorem header?_text (h : Header) (rest : List Char) :
    ∃ text, headerText h ++ rest = '\n' :: '[' :: text ∧ header? text = some (h, '\n' :: rest) := by
  obtain ⟨path, k, isArray⟩ := h
  cases isArray with
  | true =>
    refine ⟨'[' :: (pathText (path ++ [k]) ++ ']' :: ']' :: '\n' :: rest), ?_, ?_⟩
    · simp [headerText, opening, closing]
    · simp only [header?, key?_header path k rfl]
  | false =>
    refine ⟨pathText (path ++ [k]) ++ ']' :: '\n' :: rest, ?_, ?_⟩
    · simp [headerText, opening, closing]
    · have hkey := key?_header path k (rfl : pathText (path ++ [k]) ++ ']' :: '\n' :: rest = _)
      obtain ⟨c, more, hcons, hc⟩ := head_pathText path k
      have hbracket : c ≠ '[' := by
        rintro rfl
        exact absurd hc (by decide)
      rw [hcons, List.cons_append] at hkey ⊢
      unfold header?
      split
      · next heq => exact absurd (List.cons.inj heq).1 hbracket
      · simp only [hkey]

/-- A header ends the current section and starts its own. -/
theorem reads_header {h : Header} {d d' : Draft} (hstart : d.start h = some d') :
    Reads (headerText h) d d' := by
  refine ⟨2, by simp only [headerText, List.length_append, List.length_cons]; omega,
    fun fuel rest => ?_⟩
  obtain ⟨text, htext, hread⟩ := header?_text h rest
  have hblank (rest : List Char) :
      lines? (fuel + 2) ('\n' :: rest) d = lines? (fuel + 1) rest d := rfl
  have hend : endLine? ('\n' :: rest) = some rest := rfl
  have hskip : skipSpaces ('[' :: text) = '[' :: text := rfl
  rw [htext, hblank]
  conv => lhs; unfold lines?
  simp [hskip, hread, hstart, hend]

/-! ## Tables in their places -/

namespace Table

theorem lookup_replace {α : Type} (key : String) (n : α) (entries : List (String × α)) :
    (entries.map fun e => if e.1 = key then (key, n) else e).lookup key =
      (entries.lookup key).map fun _ => n := by
  induction entries with
  | nil => rfl
  | cons e rest ih =>
    obtain ⟨k, v⟩ := e
    by_cases h : k = key
    · simp [h]
    · simp [List.lookup_cons, h, beq_false_of_ne (Ne.symm h), ih]

theorem replace_of_lookup_none {α : Type} {key : String} (n : α) {entries : List (String × α)}
    (h : entries.lookup key = none) :
    (entries.map fun e => if e.1 = key then (key, n) else e) = entries := by
  have hne : ∀ e ∈ entries, e.1 ≠ key := fun e he heq =>
    absurd (List.lookup_eq_none_iff.mp h e he) (by simp [heq])
  calc entries.map (fun e => if e.1 = key then (key, n) else e)
    _ = entries.map id := List.map_congr_left fun e he => if_neg (hne e he)
    _ = entries := List.map_id entries

@[simp] theorem put_origin (t : Table) (key : String) (n : Node) : (t.put key n).origin = t.origin := by
  unfold put
  split <;> rfl

theorem put_new {t : Table} {key : String} (h : t.entries.lookup key = none) (n : Node) :
    t.put key n = { t with entries := t.entries ++ [(key, n)] } := by
  simp [put, h]

theorem lookup_put (t : Table) (key : String) (n : Node) :
    (t.put key n).entries.lookup key = some n := by
  cases h : t.entries.lookup key with
  | none => simp [put_new h, List.lookup_append, h]
  | some old => simp [put, h, lookup_replace]

/-- Of two values of one key the later counts. -/
theorem put_put (t : Table) (key : String) (n n' : Node) :
    (t.put key n).put key n' = t.put key n' := by
  cases h : t.entries.lookup key with
  | none =>
    have hlookup := lookup_put t key n
    simp only [put_new h] at hlookup ⊢
    simp [put, hlookup, replace_of_lookup_none n' h]
  | some old =>
    simp only [put, h, Option.isSome_some, if_true, lookup_replace, Option.map_some, List.map_map]
    congr 1
    refine List.map_congr_left fun e _ => ?_
    by_cases he : e.1 = key <;> simp [he]

end Table

/-- A table with a place for one more below it: under a key, or as the latest of an array. -/
structure Frame where
  parent : Table
  headed : parent.origin = .header
  key : String
  /-- The tables of the array so far, if there is an array. -/
  older : Option (List Node)

/-- What stands in the place if a table is put there. -/
def Frame.entry (f : Frame) (t : Table) : Node :=
  match f.older with
  | none => t.node
  | some older => .tables (t.node :: older)

def Frame.fill (f : Frame) (t : Table) : Table := f.parent.put f.key (f.entry t)

/-- A table inside its parents, the outermost first. -/
def plug : List Frame → Table → Table
  | [], t => t
  | f :: frames, t => f.fill (plug frames t)

theorem plug_concat (frames : List Frame) (f : Frame) (t : Table) :
    plug (frames ++ [f]) t = plug frames (f.fill t) := by
  induction frames with
  | nil => rfl
  | cons g frames ih => simp only [List.cons_append, plug, ih]

theorem plug_origin (frames : List Frame) {t : Table} (h : t.origin = .header) :
    (plug frames t).origin = .header := by
  cases frames with
  | nil => exact h
  | cons f frames => exact (Table.put_origin ..).trans f.headed

/-- The path to a place leads to the table that stands there. -/
theorem modifyAt_plug (change : Table → Option Table) (frames : List Frame) {t : Table}
    (h : t.origin = .header) :
    (plug frames t).modifyAt false change (frames.map Frame.key) =
      (change t).map (plug frames) := by
  induction frames with
  | nil => cases hchange : change t <;> simp [plug, Table.modifyAt, hchange]
  | cons f frames ih =>
    have horigin := plug_origin frames h
    have hfill (u : Table) : (f.fill (plug frames t)).put f.key (f.entry u) = f.fill u :=
      Table.put_put ..
    have hlookup : (f.fill (plug frames t)).entries.lookup f.key = some (f.entry (plug frames t)) :=
      Table.lookup_put ..
    have hcompose : ((change t).map (plug frames)).map f.fill = (change t).map (plug (f :: frames)) := by
      rw [Option.map_map]
      rfl
    rw [← hcompose, ← ih]
    simp only [plug, List.map_cons, Table.modifyAt, hlookup]
    cases holder : f.older with
    | none =>
      have heta : Table.mk .header (plug frames t).entries = plug frames t := by rw [← horigin]
      simp only [Frame.entry, holder, Table.node] at hfill ⊢
      simp [horigin, heta, hfill]
    | some older =>
      simp only [Frame.entry, holder, Table.node] at hfill ⊢
      simp [hfill]

theorem lookupAt_plug (frames : List Frame) (t : Table) :
    Draft.takeOver.lookupAt (frames.map Frame.key) (plug frames t) = some t := by
  induction frames with
  | nil => rfl
  | cons f frames ih =>
    have hlookup : (f.fill (plug frames t)).entries.lookup f.key = some (f.entry (plug frames t)) :=
      Table.lookup_put ..
    simp only [plug, List.map_cons, Draft.takeOver.lookupAt, hlookup]
    cases holder : f.older with
    | none => simpa [Frame.entry, holder, Table.node] using ih
    | some older => simpa [Frame.entry, holder, Table.node] using ih

/-! ## Order -/

/-- The order in which two keys are set does not matter. -/
theorem insertSorted_comm {α : Type} {k k' : String} (h : k ≠ k') (a a' : α)
    (l : List (String × α)) :
    Data.insertSorted k a (Data.insertSorted k' a' l) =
      Data.insertSorted k' a' (Data.insertSorted k a l) := by
  induction l with
  | nil => grind [Data.insertSorted]
  | cons e rest ih => grind [Data.insertSorted]

theorem sortedTable_eq_foldl (done entries : List (String × Data)) :
    Data.sortedTable done entries = (entries.map fun e => (e.1, e.2.sorted)).foldl
      (fun l e => Data.insertSorted e.1 e.2 l) done := by
  induction entries generalizing done with
  | nil => rfl
  | cons e rest ih => exact ih _

/-- Entries with distinct keys come to the same whatever their order. -/
theorem sorted_eq_of_perm {entries entries' : List (String × Data)}
    (h : (entries.map fun e => (e.1, e.2.sorted)).Perm (entries'.map fun e => (e.1, e.2.sorted)))
    (hkeys : (entries'.map (·.1)).Nodup) :
    (Data.table entries).sorted = (Data.table entries').sorted := by
  have hnodup : ((entries.map fun e => (e.1, e.2.sorted)).map (·.1)).Nodup := by
    rw [(h.map _).nodup_iff, List.map_map]
    exact hkeys
  have hfold := h.foldl_eq' (f := fun l e => Data.insertSorted e.1 e.2 l) (by
    intro e he e' he' l
    by_cases hkey : e.1 = e'.1
    · rw [List.inj_on_of_nodup_map hnodup he he' hkey]
    · exact insertSorted_comm (Ne.symm hkey) _ _ l) []
  simp only [Data.sorted, sortedTable_eq_foldl, hfold]

/-! ## Sections -/

/-- A table has a place for what a header opens. -/
inductive Slot (t : Table) (h : Header) : Option (List Node) → Prop
  | table : h.isArray = false → t.entries.lookup h.key = none → Slot t h none
  | first : h.isArray = true → t.entries.lookup h.key = none → Slot t h (some [])
  | next {older : List Node} : h.isArray = true → t.entries.lookup h.key = some (.tables older) →
      Slot t h (some older)

theorem start_plug {frames : List Frame} {t : Table} {h : Header} {older : Option (List Node)}
    {d : Draft} (hd : d.finish = some (plug frames t)) (ht : t.origin = .header)
    (hpath : h.path = frames.map Frame.key) (hslot : Slot t h older) :
    d.start h = some ⟨plug frames t, some h, .empty .header⟩ := by
  have hreach : (plug frames t).modifyAt false some h.path = some (plug frames t) := by
    rw [hpath, modifyAt_plug some frames ht, Option.map_some]
  have hparent : Draft.takeOver.lookupAt h.path (plug frames t) = some t := by
    rw [hpath, lookupAt_plug]
  simp only [Draft.start, hd, hreach, Option.bind_eq_bind, Option.bind_some]
  cases hslot with
  | table hkind hfree => simp [hkind, Draft.takeOver, hparent, hfree]
  | first hkind _ => simp [hkind]
  | next hkind _ => simp [hkind]

theorem finish_plug {frames : List Frame} {t : Table} {h : Header} {older : Option (List Node)}
    (ht : t.origin = .header) (hpath : h.path = frames.map Frame.key) (hslot : Slot t h older)
    (current : Table) :
    (Draft.mk (plug frames t) (some h) current).finish =
      some (plug (frames ++ [⟨t, ht, h.key, older⟩]) current) := by
  simp only [Draft.finish, hpath, modifyAt_plug _ frames ht, plug_concat]
  cases hslot with
  | table hkind hfree => simp [hfree, hkind, Frame.fill, Frame.entry]
  | first hkind hfree => simp [hfree, hkind, Frame.fill, Frame.entry]
  | next hkind hlookup => simp [hlookup, hkind, Frame.fill, Frame.entry]

theorem set_new {d : Draft} {key : String} (hd : d.current.origin = .header)
    (h : d.current.entries.lookup key = none) (n : Node) :
    d.set [] key n =
      some { d with current := ⟨.header, d.current.entries ++ [(key, n)]⟩ } := by
  simp [Draft.set, Table.set, Table.modifyAt, hd, h, Table.put_new h]

/-- The lines of plain values add the values to the section, one after the other. -/
theorem reads_lines {entries : List (String × Data)} (hplain : ∀ e ∈ entries, Plain e.2)
    (hkeys : (entries.map (·.1)).Nodup) (d : Draft) (done : List (String × Node))
    (hdone : ∀ e ∈ entries, done.lookup e.1 = none) :
    Reads (entries.flatMap fun e => line e.1 e.2) { d with current := ⟨.header, done⟩ }
      { d with current := ⟨.header, done ++ entries.map fun e => (e.1, plainNode e.2)⟩ } := by
  induction entries generalizing done with
  | nil => simpa using Reads.refl _
  | cons e rest ih =>
    obtain ⟨hfresh, hkeys⟩ := List.nodup_cons.mp hkeys
    have hset := set_new (d := { d with current := ⟨.header, done⟩ }) rfl
      (hdone e List.mem_cons_self) (plainNode e.2)
    have hline := reads_line (hplain e List.mem_cons_self) hset
    have hmore : ∀ e' ∈ rest, (done ++ [(e.1, plainNode e.2)]).lookup e'.1 = none := by
      intro e' he'
      have hne : e'.1 ≠ e.1 := fun heq => hfresh (List.mem_map.mpr ⟨e', he', heq⟩)
      simp [List.lookup_append, hdone e' (List.mem_cons_of_mem _ he'), hne]
    have hrest := ih (fun e he => hplain e (List.mem_cons_of_mem _ he)) hkeys _ hmore
    have htext := hline.append hrest
    simpa using htext

/-- Data that have a place in a document: a plain value, a table or tables. -/
inductive Fits (P : List (String × Data) → Prop) : Data → Prop
  | plain {d : Data} : Plain d → Fits P d
  | table {entries : List (String × Data)} : P entries → Fits P (.table entries)
  | tables {elements : List Data} : elements ≠ [] →
      (∀ x ∈ elements, ∃ entries, x = .table entries ∧ P entries) → Fits P (.list elements)

/-- Entries that can be written with so many levels of tables: each key stands once. -/
def Writable : Nat → List (String × Data) → Prop
  | 0, _ => False
  | depth + 1, entries => (entries.map (·.1)).Nodup ∧ ∀ e ∈ entries, Fits (Writable depth) e.2

/-- What entries under construction say, whatever the order of the entries below them. -/
def said (entries : List (String × Node)) : List (String × Data) :=
  entries.map fun e => (e.1, e.2.toData.sorted)

/-- The section of writable entries fills the place that its header opens. -/
def SectionReads (depth : Nat) : Prop :=
  ∀ {entries : List (String × Data)} {frames : List Frame} {t : Table} {h : Header}
    {older : Option (List Node)} {d : Draft}, Writable depth entries → (ht : t.origin = .header) →
    h.path = frames.map Frame.key → Slot t h older → d.finish = some (plug frames t) →
    ∃ d' filled, Reads (tableSection depth (opening h.isArray) (closing h.isArray)
        (h.path ++ [h.key]) entries) d d' ∧
      d'.finish = some (plug (frames ++ [⟨t, ht, h.key, older⟩]) ⟨.header, filled⟩) ∧
      (Node.table .header filled).toData.sorted = (Data.table entries).sorted

/-- A table with an array of tables under a key, if the array has any. -/
def withTables (t : Table) (key : String) (tables : List Node) : Table :=
  if tables = [] then t else t.put key (.tables tables)

theorem withTables_origin {t : Table} (h : t.origin = .header) (key : String) (tables : List Node) :
    (withTables t key tables).origin = .header := by
  unfold withTables
  split
  · exact h
  · exact (Table.put_origin ..).trans h

theorem slot_withTables {t : Table} (path : List String) {key : String}
    (hfree : t.entries.lookup key = none) (tables : List Node) :
    Slot (withTables t key tables) ⟨path, key, true⟩ (some tables) := by
  unfold withTables
  split
  · next hnil => exact hnil ▸ .first rfl hfree
  · exact .next rfl (Table.lookup_put ..)

theorem put_withTables (t : Table) (key : String) (n : Node) (tables : List Node) :
    (withTables t key tables).put key (.tables (n :: tables)) = withTables t key (n :: tables) := by
  unfold withTables
  split
  · rfl
  · exact Table.put_put ..

theorem isSection_tables {elements : List Data} (hne : elements ≠ [])
    (h : ∀ x ∈ elements, ∃ entries, x = .table entries) : isSection (.list elements) = true := by
  obtain ⟨x, rest, rfl⟩ := List.exists_cons_of_ne_nil hne
  have hall : (x :: rest).all isTable = true := by
    refine List.all_eq_true.mpr fun y hy => ?_
    obtain ⟨entries, rfl⟩ := h y hy
    rfl
  exact hall

theorem Fits.plain_of {P : List (String × Data) → Prop} {v : Data} (h : Fits P v)
    (hv : isSection v = false) : Plain v := by
  cases h with
  | plain h => exact h
  | table _ => exact absurd hv (by simp [isSection])
  | tables hne helements =>
    have htables := isSection_tables hne fun x hx => (helements x hx).imp fun _ h => h.1
    exact absurd hv (by simp [htables])

/-- The sections of tables fill the places of an array, in order. -/
theorem reads_elements {depth : Nat} (hread : SectionReads depth) {frames : List Frame} {t : Table}
    (ht : t.origin = .header) {key : String} (hfree : t.entries.lookup key = none)
    {elements : List Data}
    (helements : ∀ x ∈ elements, ∃ entries, x = .table entries ∧ Writable depth entries)
    (older : List Node) {d : Draft} (hd : d.finish = some (plug frames (withTables t key older))) :
    ∃ (d' : Draft) (tables : List Node),
      Reads (elementSections depth (frames.map Frame.key ++ [key]) elements) d d' ∧
      d'.finish = some (plug frames (withTables t key (tables.reverse ++ older))) ∧
      tables.map (fun n => n.toData.sorted) = elements.map Data.sorted := by
  induction elements generalizing older d with
  | nil => exact ⟨d, [], by unfold elementSections; exact .refl d, hd, rfl⟩
  | cons x rest ih =>
    obtain ⟨entries, rfl, hentries⟩ := helements x List.mem_cons_self
    obtain ⟨d₁, filled, hfirst, hd₁, hsaid⟩ := hread hentries (withTables_origin ht key older) rfl
      (slot_withTables (frames.map Frame.key) hfree older) hd
    have hplace : d₁.finish =
        some (plug frames (withTables t key (.table .header filled :: older))) := by
      rw [hd₁, plug_concat]
      simp only [Frame.fill, Frame.entry, Table.node, put_withTables]
    obtain ⟨d₂, tables, hmore, hd₂, hsaid'⟩ :=
      ih (fun x hx => helements x (List.mem_cons_of_mem _ hx)) _ hplace
    refine ⟨d₂, Node.table .header filled :: tables, ?_, ?_, ?_⟩
    · unfold elementSections
      exact hfirst.append hmore
    · simpa using hd₂
    · simp only [List.map_cons, hsaid, hsaid']

theorem sections_cons (depth : Nat) (path : List String) (e : String × Data)
    (rest : List (String × Data)) :
    sections depth path (e :: rest) = sections depth path [e] ++ sections depth path rest := by
  obtain ⟨k, v⟩ := e
  cases v <;> simp [sections]

theorem sections_plain {e : String × Data} (h : isSection e.2 = false) (depth : Nat)
    (path : List String) : sections depth path [e] = [] := by
  obtain ⟨k, v⟩ := e
  cases v with
  | list elements => simp [sections, show isSection (.list elements) = false from h]
  | table entries => exact absurd h (by simp [isSection])
  | _ => simp [sections]

theorem toDataList_eq_map (nodes : List Node) : Node.toDataList nodes = nodes.map Node.toData := by
  induction nodes with
  | nil => rfl
  | cons n rest ih => simp [Node.toDataList, ih]

theorem sortedList_eq_map (elements : List Data) :
    Data.sortedList elements = elements.map Data.sorted := by
  induction elements with
  | nil => rfl
  | cons d rest ih => simp [Data.sortedList, ih]

/-- The sections of one entry put what it says under its key. -/
theorem reads_section {depth : Nat} (hread : SectionReads depth) {frames : List Frame} {k : String}
    {v : Data} (hsection : isSection v = true) (hfits : Fits (Writable depth) v) {t : Table}
    (ht : t.origin = .header) (hfree : t.entries.lookup k = none) {d : Draft}
    (hd : d.finish = some (plug frames t)) :
    ∃ (d' : Draft) (n : Node), Reads (sections depth (frames.map Frame.key) [(k, v)]) d d' ∧
      d'.finish = some (plug frames (t.put k n)) ∧ n.toData.sorted = v.sorted := by
  cases hfits with
  | plain hplain => exact absurd hsection (by simp [not_section_of_plain hplain])
  | table hentries =>
    have hslot : Slot t ⟨frames.map Frame.key, k, false⟩ none := .table rfl hfree
    obtain ⟨d', filled, hreads, hd', hsaid⟩ := hread hentries ht rfl hslot hd
    rw [plug_concat] at hd'
    refine ⟨d', Node.table .header filled, ?_, hd', hsaid⟩
    simpa [sections, opening, closing] using hreads
  | @tables elements hne helements =>
    obtain ⟨d', tables, hreads, hd', hsaid⟩ := reads_elements hread ht hfree helements [] hd
    have hsome : tables ≠ [] := by
      rintro rfl
      exact hne (List.map_eq_nil_iff.mp hsaid.symm)
    refine ⟨d', Node.tables tables.reverse, ?_, ?_, ?_⟩
    · simpa [sections, hsection] using hreads
    · simpa [withTables, hsome] using hd'
    · simpa [Node.toData, Data.sorted, toDataList_eq_map, sortedList_eq_map, Function.comp_def]
        using hsaid

/-- The sections below a table add their tables to it, in order. -/
theorem reads_sections {depth : Nat} (hread : SectionReads depth) {frames : List Frame}
    {entries : List (String × Data)} (hkeys : (entries.map (·.1)).Nodup)
    (hfits : ∀ e ∈ entries, Fits (Writable depth) e.2) {done : List (String × Node)}
    (hdone : ∀ e ∈ entries, isSection e.2 = true → done.lookup e.1 = none) {d : Draft}
    (hd : d.finish = some (plug frames ⟨.header, done⟩)) :
    ∃ (d' : Draft) (more : List (String × Node)),
      Reads (sections depth (frames.map Frame.key) entries) d d' ∧
      d'.finish = some (plug frames ⟨.header, done ++ more⟩) ∧
      said more = (entries.filter fun e => isSection e.2).map fun e => (e.1, e.2.sorted) := by
  induction entries generalizing done d with
  | nil => exact ⟨d, [], by simpa [sections] using Reads.refl d, by simpa using hd, rfl⟩
  | cons e rest ih =>
    obtain ⟨hfresh, hkeys⟩ := List.nodup_cons.mp hkeys
    have hfits' : ∀ e ∈ rest, Fits (Writable depth) e.2 :=
      fun e he => hfits e (List.mem_cons_of_mem _ he)
    have hdone' : ∀ e ∈ rest, isSection e.2 = true → done.lookup e.1 = none :=
      fun e he => hdone e (List.mem_cons_of_mem _ he)
    rw [sections_cons]
    by_cases hsection : isSection e.2 = true
    · have hfree := hdone e List.mem_cons_self hsection
      obtain ⟨d₁, n, hfirst, hd₁, hn⟩ := reads_section (t := ⟨.header, done⟩) hread hsection
        (hfits e List.mem_cons_self) rfl hfree hd
      rw [Table.put_new hfree] at hd₁
      have hlater : ∀ e' ∈ rest, isSection e'.2 = true → (done ++ [(e.1, n)]).lookup e'.1 = none := by
        intro e' he' hsection'
        have hne : e'.1 ≠ e.1 := fun heq => hfresh (List.mem_map.mpr ⟨e', he', heq⟩)
        simp [List.lookup_append, hdone' e' he' hsection', hne]
      obtain ⟨d₂, more, hmore, hd₂, hsaid⟩ := ih hkeys hfits' hlater hd₁
      refine ⟨d₂, (e.1, n) :: more, hfirst.append hmore, by simpa using hd₂, ?_⟩
      have hcons : said ((e.1, n) :: more) = (e.1, n.toData.sorted) :: said more := rfl
      rw [hcons, hsaid, hn, List.filter_cons_of_pos (by simpa using hsection), List.map_cons]
    · rw [sections_plain (by simpa using hsection), List.nil_append,
        List.filter_cons_of_neg (by simpa using hsection)]
      exact ih hkeys hfits' hdone' hd

theorem toDataTable_eq_map (entries : List (String × Node)) :
    Node.toDataTable entries = entries.map fun e => (e.1, e.2.toData) := by
  induction entries with
  | nil => rfl
  | cons e rest ih => simp [Node.toDataTable, ih]

/-- A table says the same as entries that its own say in any order. -/
theorem sorted_of_said {filled : List (String × Node)} {entries : List (String × Data)}
    (hkeys : (entries.map (·.1)).Nodup)
    (h : (said filled).Perm (entries.map fun e => (e.1, e.2.sorted))) :
    (Node.table .header filled).toData.sorted = (Data.table entries).sorted := by
  simp only [Node.toData, toDataTable_eq_map]
  refine sorted_eq_of_perm ?_ hkeys
  rw [List.map_map]
  exact h

/-- The lines and sections of a table fill it, whatever its place. -/
theorem reads_entries {depth : Nat} (hread : SectionReads depth) {frames : List Frame}
    {entries : List (String × Data)} (h : Writable (depth + 1) entries) {d : Draft}
    (hempty : d.current = .empty .header)
    (hd : ∀ t, { d with current := t }.finish = some (plug frames t)) :
    ∃ (d' : Draft) (filled : List (String × Node)),
      Reads (plainLines entries ++ sections depth (frames.map Frame.key) entries) d d' ∧
      d'.finish = some (plug frames ⟨.header, filled⟩) ∧
      (Node.table .header filled).toData.sorted = (Data.table entries).sorted := by
  obtain ⟨hkeys, hfits⟩ := h
  obtain ⟨plain, hplain⟩ : ∃ plain, plain = entries.filter fun e => !isSection e.2 := ⟨_, rfl⟩
  obtain ⟨done, hdone⟩ : ∃ done, done = plain.map fun e => (e.1, plainNode e.2) := ⟨_, rfl⟩
  have hmem : ∀ e ∈ plain, e ∈ entries ∧ isSection e.2 = false := by simp [hplain]
  have hvalues : ∀ e ∈ plain, Plain e.2 := fun e he =>
    (hfits e (hmem e he).1).plain_of (hmem e he).2
  have hlines : Reads (plainLines entries) d { d with current := ⟨.header, done⟩ } := by
    have hsub : (plain.map (·.1)).Nodup := hkeys.sublist (hplain ▸ List.filter_sublist.map _)
    have hlines := reads_lines hvalues hsub d [] fun _ _ => rfl
    rw [List.nil_append, ← hdone] at hlines
    have hstart : { d with current := ⟨.header, []⟩ } = d := by
      rw [show (⟨.header, []⟩ : Table) = d.current from hempty.symm]
    have htext : plainLines entries = plain.flatMap fun e => line e.1 e.2 := by rw [hplain]; rfl
    rwa [hstart, ← htext] at hlines
  have hfresh : ∀ e ∈ entries, isSection e.2 = true → done.lookup e.1 = none := by
    intro e he hsection
    refine List.lookup_eq_none_iff.mpr fun e' he' => ?_
    obtain ⟨e', hin, rfl⟩ := List.mem_map.mp (hdone ▸ he')
    refine bne_iff_ne.mpr fun heq => ?_
    have hsame := List.inj_on_of_nodup_map hkeys he (hmem e' hin).1 heq
    exact absurd hsection (by simp [hsame, (hmem e' hin).2])
  obtain ⟨d', more, hsections, hd', hsaid⟩ :=
    reads_sections hread hkeys hfits hfresh (hd ⟨.header, done⟩)
  refine ⟨d', done ++ more, hlines.append hsections, hd', sorted_of_said hkeys ?_⟩
  have hdata : said done = plain.map fun e => (e.1, e.2.sorted) := by
    simp [said, hdone, Function.comp_def, toData_plainNode]
  have happend : said (done ++ more) = said done ++ said more := List.map_append
  rw [happend, hdata, hsaid, ← List.map_append, hplain]
  exact (List.perm_append_comm.trans
    (List.filter_append_perm (fun e => isSection e.2) entries)).map _

theorem sectionReads (depth : Nat) : SectionReads depth := by
  induction depth with
  | zero => exact fun hentries => absurd hentries id
  | succ depth ih =>
    intro entries frames t h older d hentries ht hpath hslot hd
    have hheader := reads_header (start_plug hd ht hpath hslot)
    have hplace : ∀ current, (Draft.mk (plug frames t) (some h) current).finish =
        some (plug (frames ++ [⟨t, ht, h.key, older⟩]) current) := finish_plug ht hpath hslot
    obtain ⟨d', filled, hfill, hd', hsaid⟩ :=
      reads_entries (d := ⟨plug frames t, some h, .empty .header⟩) ih hentries rfl hplace
    refine ⟨d', filled, ?_, hd', hsaid⟩
    have hbelow : (frames ++ [(⟨t, ht, h.key, older⟩ : Frame)]).map Frame.key =
        h.path ++ [h.key] := by simp [hpath]
    rw [hbelow] at hfill
    have htext : tableSection (depth + 1) (opening h.isArray) (closing h.isArray)
        (h.path ++ [h.key]) entries =
        headerText h ++ (plainLines entries ++ sections depth (h.path ++ [h.key]) entries) := by
      simp [tableSection, headerText]
    rw [htext]
    exact hheader.append hfill

/-! ## Documents -/

theorem head_plainLines {entries : List (String × Data)} (h : ∃ e ∈ entries, isSection e.2 = false) :
    ∃ c more, plainLines entries = c :: more ∧ (isKeyChar c = true ∨ c = '"' ∨ c = '\'') := by
  obtain ⟨e, he, hsection⟩ := h
  have hne : entries.filter (fun e => !isSection e.2) ≠ [] :=
    List.ne_nil_of_mem (List.mem_filter.mpr ⟨he, by simp [hsection]⟩)
  obtain ⟨first, rest, hcons⟩ := List.exists_cons_of_ne_nil hne
  obtain ⟨c, more, hkey, hc⟩ := head_key first.1
  refine ⟨c, more ++ " = ".toList ++ value first.2 ++ ['\n'] ++
    rest.flatMap fun e => line e.1 e.2, ?_, hc⟩
  simp [plainLines, hcons, hkey, line]

theorem parse?_of_reads {text : List Char} {d : Draft} {t : Table} (hmark : skipMark text = text)
    (hread : Reads text .empty d) (hd : d.finish = some t) :
    parse? (String.ofList text) = some t.node.toData := by
  obtain ⟨n, hn, hread⟩ := hread
  obtain ⟨fuel, hfuel⟩ : ∃ fuel, text.length + 1 = fuel + 1 + n := ⟨text.length - n, by omega⟩
  have hend : lines? (fuel + 1) [] d = some d := rfl
  have hall := hread (fuel + 1) []
  rw [List.append_nil, hend] at hall
  simp only [parse?, String.toList_ofList, hmark, hfuel, hall, hd, Option.map_some]

/-- A written document reads as what it says, in some order of its entries. -/
theorem parse?_print {entries : List (String × Data)} (h : Writable (sectionDepth + 1) entries)
    (hplain : ∃ e ∈ entries, isSection e.2 = false) :
    ∃ d, parse? (print (.table entries)) = some d ∧ d.sorted = (Data.table entries).sorted := by
  have hplace : ∀ t, { Draft.empty with current := t }.finish = some (plug [] t) := fun _ => rfl
  obtain ⟨d', filled, hread, hd', hsaid⟩ := reads_entries (sectionReads sectionDepth) h rfl hplace
  obtain ⟨c, more, hcons, hc⟩ := head_plainLines hplain
  have hnewline : c ≠ '\n' := by
    rintro rfl
    exact absurd hc (by decide)
  have hmark : c ≠ '\ufeff' := by
    rintro rfl
    exact absurd hc (by decide)
  have hlead (rest : List Char) : dropLeadingNewline (c :: rest) = c :: rest := by
    unfold dropLeadingNewline
    split
    · next heq => exact absurd (List.cons.inj heq).1 hnewline
    · rfl
  have hkeep (rest : List Char) : skipMark (c :: rest) = c :: rest := by
    unfold skipMark
    split
    · next heq => exact absurd (List.cons.inj heq).1 hmark
    · rfl
  have htext : print (.table entries) =
      String.ofList (plainLines entries ++ sections sectionDepth [] entries) := by
    rw [hcons, List.cons_append, ← hlead, ← List.cons_append, ← hcons]
    rfl
  refine ⟨_, ?_, hsaid⟩
  rw [htext]
  exact parse?_of_reads (by rw [List.map_nil, hcons, List.cons_append, hkeep]) hread hd'

end Toml

end RpcPool
