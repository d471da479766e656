import Mathlib.Algebra.Ring.Nat
import Mathlib.Data.Int.Notation
import Mathlib.Data.List.Basic
import Mathlib.Data.Nat.Notation
import Mathlib.Tactic.Common

/-!
# Compact JSON text

Values are written the way `serde_json` writes a structure: without blanks, members in declaration
order, an absent option as `null`. Sizes are counted in UTF-8 bytes.
-/

namespace KafkaEdgeRouter.Json

/-- The two-character escapes, the numeric escape of the other control characters, and every other
character as it is. -/
def escape (c : Char) : List Char :=
  if c = '"' then ['\\', '"']
  else if c = '\\' then ['\\', '\\']
  else if c.toNat = 0x08 then ['\\', 'b']
  else if c.toNat = 0x09 then ['\\', 't']
  else if c.toNat = 0x0A then ['\\', 'n']
  else if c.toNat = 0x0C then ['\\', 'f']
  else if c.toNat = 0x0D then ['\\', 'r']
  else if c.toNat < 0x20 then
    ['\\', 'u', '0', '0', Nat.digitChar (c.toNat / 16), Nat.digitChar (c.toNat % 16)]
  else [c]

def string (s : String) : List Char := '"' :: s.toList.flatMap escape ++ ['"']

def natural (n : ℕ) : List Char := Nat.toDigits 10 n

def integer : ℤ → List Char
  | .ofNat n => natural n
  | .negSucc n => '-' :: natural (n + 1)

def option {α : Type} (value : α → List Char) : Option α → List Char
  | none => "null".toList
  | some a => value a

def members : List (String × List Char) → List Char
  | [] => []
  | [(name, value)] => string name ++ ':' :: value
  | (name, value) :: rest => string name ++ ':' :: value ++ ',' :: members rest

def object (fields : List (String × List Char)) : List Char := '\x7b' :: members fields ++ ['\x7d']

/-- The number of bytes of the text in UTF-8. -/
def size (text : List Char) : ℕ := (text.map Char.utf8Size).sum

@[simp] theorem size_nil : size [] = 0 := rfl

@[simp] theorem size_cons (c : Char) (text : List Char) :
    size (c :: text) = c.utf8Size + size text := by
  simp [size]

@[simp] theorem size_append (text text' : List Char) :
    size (text ++ text') = size text + size text' := by
  simp [size]

theorem utf8ByteSize_eq_size (s : String) : s.utf8ByteSize = size s.toList := by
  rw [← String.ofList_toList (s := s), String.toList_ofList]
  induction s.toList with
  | nil => rfl
  | cons c text ih => simp [ih]

theorem size_of_ascii {text : List Char} (h : ∀ c ∈ text, c.toNat < 128) :
    size text = text.length := by
  have hone : ∀ c ∈ text, c.utf8Size = 1 := by
    intro c hc
    rw [Char.utf8Size_eq_one_iff, UInt32.le_iff_toNat_le]
    exact Nat.lt_succ_iff.mp (h c hc)
  rw [size, List.map_congr_left hone]
  simp

theorem length_le_size (text : List Char) : text.length ≤ size text := by
  induction text with
  | nil => exact Nat.le_refl 0
  | cons c text ih =>
    have hpos := c.utf8Size_pos
    rw [List.length_cons, size_cons]
    omega

theorem toNat_of_mem_toDigits {c : Char} {n : ℕ} (h : c ∈ Nat.toDigits 10 n) :
    48 ≤ c.toNat ∧ c.toNat ≤ 57 := by
  have hdigit := Nat.isDigit_of_mem_toDigits (by decide) (by decide) h
  simp only [Char.isDigit, Bool.and_eq_true, decide_eq_true_eq, ge_iff_le,
    UInt32.le_iff_toNat_le] at hdigit
  exact hdigit

/-- Decimal digits take one byte each. -/
theorem size_natural (n : ℕ) : size (natural n) = (Nat.toDigits 10 n).length := by
  apply size_of_ascii
  intro c hc
  have := (toNat_of_mem_toDigits hc).2
  omega

theorem size_natural_mono {m n : ℕ} (h : m ≤ n) : size (natural m) ≤ size (natural n) := by
  rw [size_natural, size_natural]
  have hpos : 0 < (Nat.toDigits 10 n).length := Nat.length_toDigits_pos
  rw [Nat.length_toDigits_le_iff (by decide) hpos]
  exact Nat.lt_of_le_of_lt h ((Nat.length_toDigits_le_iff (by decide) hpos).mp (Nat.le_refl _))

/-- The bytes of a text in quotes. -/
def quoted (s : String) : ℕ := size (string s)

/-- The bytes of a member whose value takes so many, with the comma or the brace after it. -/
def memberSize (name : String) (value : ℕ) : ℕ := quoted name + value + 2

theorem size_members (field : String × List Char) (fields : List (String × List Char)) :
    size (members (field :: fields)) + 1 =
      ((field :: fields).map fun f => memberSize f.1 (size f.2)).sum := by
  have hcolon : ':'.utf8Size = 1 := by decide
  have hcomma : ','.utf8Size = 1 := by decide
  induction fields generalizing field with
  | nil =>
    simp only [members, size_append, size_cons, hcolon, List.map_cons, List.map_nil, List.sum_cons,
      List.sum_nil, memberSize, quoted]
    omega
  | cons next fields ih =>
    have hnext := ih next
    rw [List.map_cons, List.sum_cons, ← hnext]
    simp only [members, size_append, size_cons, hcolon, hcomma, memberSize, quoted]
    omega

theorem size_object {fields : List (String × List Char)} (h : fields ≠ []) :
    size (object fields) = 1 + (fields.map fun f => memberSize f.1 (size f.2)).sum := by
  have hopen : '\x7b'.utf8Size = 1 := by decide
  have hclose : '\x7d'.utf8Size = 1 := by decide
  cases fields with
  | nil => exact absurd rfl h
  | cons field fields =>
    rw [← size_members]
    simp only [object, size_append, size_cons, size_nil, hopen, hclose]
    omega

theorem escape_of_plain {c : Char} (hquote : c ≠ '"') (hbackslash : c ≠ '\\')
    (h : 0x20 ≤ c.toNat) : escape c = [c] := by
  rw [escape, if_neg hquote, if_neg hbackslash, if_neg (by omega), if_neg (by omega),
    if_neg (by omega), if_neg (by omega), if_neg (by omega), if_neg (by omega)]

/-- Text without quotes, backslashes and control characters is written as it is. -/
theorem quoted_of_plain {s : String} (h : ∀ c ∈ s.toList, escape c = [c]) :
    quoted s = s.utf8ByteSize + 2 := by
  have hquote : '"'.utf8Size = 1 := by decide
  have hmap : s.toList.flatMap escape = s.toList := by
    rw [List.flatMap_congr h, List.flatMap_singleton']
  simp only [quoted, string, hmap, size_append, size_cons, size_nil, hquote, utf8ByteSize_eq_size]
  omega

theorem quoted_eq (s : String) : quoted s = size (s.toList.flatMap escape) + 2 := by
  have hquote : '"'.utf8Size = 1 := by decide
  simp only [quoted, string, size_append, size_cons, size_nil, hquote]
  omega

/-- Other characters than control characters take at most twice their bytes. -/
theorem size_escape_le {c : Char} (h : 0x20 ≤ c.toNat) : size (escape c) ≤ 2 * c.utf8Size := by
  have hpos := c.utf8Size_pos
  unfold escape
  split_ifs with hquote hbackslash
  · rw [hquote]
    decide
  · rw [hbackslash]
    decide
  · omega
  · omega
  · omega
  · omega
  · omega
  · omega
  · rw [size_cons, size_nil]
    omega

theorem size_flatMap_escape_le {text : List Char} (h : ∀ c ∈ text, 0x20 ≤ c.toNat) :
    size (text.flatMap escape) ≤ 2 * size text := by
  induction text with
  | nil => exact Nat.le_refl 0
  | cons c text ih =>
    have hc := size_escape_le (h c List.mem_cons_self)
    have hrest := ih fun c' hc' => h c' (List.mem_cons_of_mem _ hc')
    rw [List.flatMap_cons, size_append, size_cons]
    omega

theorem quoted_le {s : String} (h : ∀ c ∈ s.toList, 0x20 ≤ c.toNat) :
    quoted s ≤ 2 * s.utf8ByteSize + 2 := by
  have hsize := size_flatMap_escape_le h
  rw [quoted_eq, utf8ByteSize_eq_size]
  omega

theorem size_flatMap_quotes (n : ℕ) : size ((List.replicate n '"').flatMap escape) = 2 * n := by
  have hescape : size (escape '"') = 2 := by decide
  induction n with
  | zero => rfl
  | succ n ih =>
    rw [List.replicate_succ, List.flatMap_cons, size_append, ih, hescape]
    omega

end KafkaEdgeRouter.Json
