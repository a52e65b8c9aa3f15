import RpcPool.Text.Numeral
import RpcPool.Text.Pieces

/-!
# Tables of characters

Properties of characters are laid down in tables, which are written as text: entries between blanks, all
numbers in base sixteen. There are four kinds of entries.

* `41-5A` stands for a range of characters, `41` for one;
* `41-5A:E6` for a range whose characters have a value;
* `41-5A>61` for a range whose first character has the image `61`, the one after it the image `62` and so
  on; with `/2` behind the range only every second character belongs to it, and images go up alike;
* `C0=41.300,41.301` for consecutive characters from `C0` on, each with a sequence for its image.
-/

namespace RpcPool

namespace Text

namespace Table

def number (cs : List Char) : Nat := numberOf 16 cs

/-- The two parts of a text around the first character of a kind, the second empty if there is none. -/
def halves (cut : Char) (cs : List Char) : List Char × List Char :=
  (cs.takeWhile (· != cut), (cs.dropWhile (· != cut)).drop 1)

/-- The entries of a table. -/
def entries (table : String) : List (List Char) :=
  (pieces (fun c => c == ' ' || c == '\n') table.toList).filter fun e => !e.isEmpty

def range (cs : List Char) : Nat × Nat :=
  match halves '-' cs with
  | (first, []) => (number first, number first)
  | (first, last) => (number first, number last)

/-! ## Ranges -/

def ranges (table : String) : List (Nat × Nat) := (entries table).map range

def inRange (c : Nat) (r : Nat × Nat) : Bool := r.1 ≤ c && c ≤ r.2

def holds (ranges : List (Nat × Nat)) (c : Char) : Bool := ranges.any (inRange c.toNat)

/-! ## Values -/

def values (table : String) : List ((Nat × Nat) × Nat) :=
  (entries table).map fun e =>
    let (r, value) := halves ':' e
    (range r, number value)

def value? (values : List ((Nat × Nat) × Nat)) (c : Char) : Option Nat :=
  (values.find? fun v => inRange c.toNat v.1).map (·.2)

/-! ## Images -/

/-- Characters with images that go up alike. -/
structure Run where
  first : Nat
  last : Nat
  step : Nat
  image : Nat

def run (cs : List Char) : Run :=
  let (source, image) := halves '>' cs
  let (r, step) := halves '/' source
  let (first, last) := range r
  ⟨first, last, if step.isEmpty then 1 else number step, number image⟩

def runs (table : String) : List Run := (entries table).map run

def Run.holds (r : Run) (c : Nat) : Bool := inRange c (r.first, r.last) && (c - r.first) % r.step == 0

def runImage? (runs : List Run) (c : Char) : Option Char :=
  (runs.find? fun r => r.holds c.toNat).map fun r => Char.ofNat (r.image + (c.toNat - r.first))

/-- Consecutive characters with a sequence each. -/
structure Sequences where
  first : Nat
  images : List (List Char)

def sequences (table : String) : List Sequences :=
  (entries table).map fun e =>
    let (first, images) := halves '=' e
    ⟨number first, (pieces (· == ',') images).map fun image =>
      (pieces (· == '.') image).map fun c => Char.ofNat (number c)⟩

def Sequences.holds (s : Sequences) (c : Nat) : Bool := s.first ≤ c && c < s.first + s.images.length

def sequence? (sequences : List Sequences) (c : Char) : Option (List Char) :=
  (sequences.find? fun s => s.holds c.toNat).bind fun s => s.images[c.toNat - s.first]?

end Table

end Text

end RpcPool
