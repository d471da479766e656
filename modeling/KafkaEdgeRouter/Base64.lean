import Mathlib.Data.Nat.Notation
import Mathlib.Tactic.Common

/-!
# Padded base64

The standard alphabet with canonical padding: three bytes become four symbols, the last group is
filled with `=`, and the bits that no byte uses have to be zero.
-/

namespace KafkaEdgeRouter.Base64

def alphabet : List Char :=
  "ABCDEFGHIJKLMNOPQRSTUVWXYZabcdefghijklmnopqrstuvwxyz0123456789+/".toList

def symbol (n : ℕ) : Char := alphabet.getD n '='

def value (c : Char) : Option ℕ := alphabet.findIdx? (· == c)

def encode : List UInt8 → List Char
  | [] => []
  | [a] => [symbol (a.toNat / 4), symbol (a.toNat % 4 * 16), '=', '=']
  | [a, b] =>
    [symbol (a.toNat / 4), symbol (a.toNat % 4 * 16 + b.toNat / 16), symbol (b.toNat % 16 * 4), '=']
  | a :: b :: c :: rest =>
    symbol (a.toNat / 4) :: symbol (a.toNat % 4 * 16 + b.toNat / 16) ::
      symbol (b.toNat % 16 * 4 + c.toNat / 64) :: symbol (c.toNat % 64) :: encode rest

def decode : List Char → Option (List UInt8)
  | [] => some []
  | a :: b :: c :: d :: rest => do
    let va ← value a
    let vb ← value b
    if d = '=' then
      if rest ≠ [] then none
      else if c = '=' then
        if vb % 16 = 0 then some [.ofNat (va * 4 + vb / 16)] else none
      else do
        let vc ← value c
        if vc % 4 = 0 then some [.ofNat (va * 4 + vb / 16), .ofNat (vb % 16 * 16 + vc / 4)]
        else none
    else do
      let vc ← value c
      let vd ← value d
      let bytes ← decode rest
      some (.ofNat (va * 4 + vb / 16) :: .ofNat (vb % 16 * 16 + vc / 4) ::
        .ofNat (vc % 4 * 64 + vd) :: bytes)
  | _ => none

theorem value_symbol {n : ℕ} (h : n < 64) : value (symbol n) = some n := by
  have hall : ∀ n : Fin 64, value (symbol n) = some n.val := by decide +kernel
  exact hall ⟨n, h⟩

theorem symbol_ne_pad {n : ℕ} (h : n < 64) : symbol n ≠ '=' := by
  have hall : ∀ n : Fin 64, symbol n ≠ '=' := by decide +kernel
  exact hall ⟨n, h⟩

theorem utf8Size_symbol {n : ℕ} (h : n < 64) : (symbol n).utf8Size = 1 := by
  have hall : ∀ n : Fin 64, (symbol n).utf8Size = 1 := by decide +kernel
  exact hall ⟨n, h⟩

theorem utf8ByteSize_ofList_cons (c : Char) (text : List Char) :
    (String.ofList (c :: text)).utf8ByteSize = c.utf8Size + (String.ofList text).utf8ByteSize := by
  rw [String.ofList_cons, String.utf8ByteSize_append, String.utf8ByteSize_singleton]

/-- The encoded text has four bytes for every group of three, also for the last one. -/
theorem utf8ByteSize_encode (bytes : List UInt8) :
    (String.ofList (encode bytes)).utf8ByteSize = (bytes.length + 2) / 3 * 4 := by
  have hpad : '='.utf8Size = 1 := by decide
  have hnil : (String.ofList []).utf8ByteSize = 0 := by decide
  fun_induction encode bytes with
  | case1 => exact hnil
  | case2 a =>
    have ha : a.toNat < 256 := a.toNat_lt
    simp only [utf8ByteSize_ofList_cons, hpad, hnil,
      utf8Size_symbol (show a.toNat / 4 < 64 by omega),
      utf8Size_symbol (show a.toNat % 4 * 16 < 64 by omega), List.length_cons, List.length_nil]
  | case3 a b =>
    have ha : a.toNat < 256 := a.toNat_lt
    have hb : b.toNat < 256 := b.toNat_lt
    simp only [utf8ByteSize_ofList_cons, hpad, hnil,
      utf8Size_symbol (show a.toNat / 4 < 64 by omega),
      utf8Size_symbol (show a.toNat % 4 * 16 + b.toNat / 16 < 64 by omega),
      utf8Size_symbol (show b.toNat % 16 * 4 < 64 by omega), List.length_cons, List.length_nil]
  | case4 a b c rest ih =>
    have ha : a.toNat < 256 := a.toNat_lt
    have hb : b.toNat < 256 := b.toNat_lt
    have hc : c.toNat < 256 := c.toNat_lt
    simp only [utf8ByteSize_ofList_cons, ih, List.length_cons,
      utf8Size_symbol (show a.toNat / 4 < 64 by omega),
      utf8Size_symbol (show a.toNat % 4 * 16 + b.toNat / 16 < 64 by omega),
      utf8Size_symbol (show b.toNat % 16 * 4 + c.toNat / 64 < 64 by omega),
      utf8Size_symbol (show c.toNat % 64 < 64 by omega)]
    omega

theorem mem_encode {c : Char} {bytes : List UInt8} (h : c ∈ encode bytes) :
    c = '=' ∨ ∃ n < 64, c = symbol n := by
  fun_induction encode bytes with
  | case1 => exact absurd h List.not_mem_nil
  | case2 a =>
    have ha : a.toNat < 256 := a.toNat_lt
    simp only [List.mem_cons, List.not_mem_nil, or_false] at h
    rcases h with h | h | h | h
    · exact .inr ⟨_, by omega, h⟩
    · exact .inr ⟨_, by omega, h⟩
    · exact .inl h
    · exact .inl h
  | case3 a b =>
    have ha : a.toNat < 256 := a.toNat_lt
    have hb : b.toNat < 256 := b.toNat_lt
    simp only [List.mem_cons, List.not_mem_nil, or_false] at h
    rcases h with h | h | h | h
    · exact .inr ⟨_, by omega, h⟩
    · exact .inr ⟨_, by omega, h⟩
    · exact .inr ⟨_, by omega, h⟩
    · exact .inl h
  | case4 a b c rest ih =>
    have ha : a.toNat < 256 := a.toNat_lt
    have hb : b.toNat < 256 := b.toNat_lt
    have hc : c.toNat < 256 := c.toNat_lt
    simp only [List.mem_cons] at h
    rcases h with h | h | h | h | h
    · exact .inr ⟨_, by omega, h⟩
    · exact .inr ⟨_, by omega, h⟩
    · exact .inr ⟨_, by omega, h⟩
    · exact .inr ⟨_, by omega, h⟩
    · exact ih h

theorem utf8Size_of_value {c : Char} {n : ℕ} (h : value c = some n) : c.utf8Size = 1 := by
  obtain ⟨hn, hc, _⟩ := List.findIdx?_eq_some_iff_getElem.mp h
  have hlength : alphabet.length = 64 := by decide +kernel
  have hsymbol : symbol n = c := by
    rw [symbol, List.getD_eq_getElem?_getD, List.getElem?_eq_getElem hn, Option.getD_some,
      beq_iff_eq.mp hc]
  rw [← hsymbol]
  exact utf8Size_symbol (hlength ▸ hn)

/-- Only text of that length can be decoded. -/
theorem utf8ByteSize_of_decode {text : List Char} {bytes : List UInt8}
    (h : decode text = some bytes) :
    (String.ofList text).utf8ByteSize = (bytes.length + 2) / 3 * 4 := by
  have hpad : '='.utf8Size = 1 := by decide
  have hnil : (String.ofList []).utf8ByteSize = 0 := by decide
  fun_induction decode text generalizing bytes with
  | case1 =>
    cases h
    exact hnil
  | case2 a b c d rest ih =>
    simp only [Option.bind_eq_bind, Option.bind_eq_some_iff] at h
    obtain ⟨va, ha, vb, hb, h⟩ := h
    simp only [utf8ByteSize_ofList_cons, utf8Size_of_value ha, utf8Size_of_value hb]
    by_cases hd : d = '='
    · subst hd
      rw [if_pos rfl] at h
      by_cases hrest : rest = []
      · subst hrest
        rw [if_neg (fun hne => hne rfl)] at h
        by_cases hc : c = '='
        · subst hc
          rw [if_pos rfl] at h
          split at h
          · cases h
            simp [hpad, hnil]
          · cases h
        · rw [if_neg hc, Option.bind_eq_some_iff] at h
          obtain ⟨vc, hvc, h⟩ := h
          split at h
          · cases h
            simp [utf8Size_of_value hvc, hpad, hnil]
          · cases h
      · rw [if_pos hrest] at h
        cases h
    · simp only [if_neg hd, Option.bind_eq_some_iff] at h
      obtain ⟨vc, hvc, vd, hvd, bytes', hbytes, h⟩ := h
      cases h
      rw [utf8Size_of_value hvc, utf8Size_of_value hvd, ih hbytes]
      simp only [List.length_cons]
      omega
  | case3 => cases h

theorem ofNat_eq {n : ℕ} {a : UInt8} (h : n = a.toNat) : UInt8.ofNat n = a := by
  rw [h, UInt8.ofNat_toNat]

theorem decode_encode (bytes : List UInt8) : decode (encode bytes) = some bytes := by
  fun_induction encode bytes with
  | case1 => rfl
  | case2 a =>
    have ha : a.toNat < 256 := a.toNat_lt
    have h : (a.toNat / 4 * 4 + a.toNat % 4 * 16 / 16) = a.toNat := by omega
    have hz : a.toNat % 4 * 16 % 16 = 0 := by omega
    simp only [decode, bind, Option.bind, value_symbol (show a.toNat / 4 < 64 by omega),
      value_symbol (show a.toNat % 4 * 16 < 64 by omega), ne_eq, not_true, if_true,
      if_false, hz, ofNat_eq h]
  | case3 a b =>
    have ha : a.toNat < 256 := a.toNat_lt
    have hb : b.toNat < 256 := b.toNat_lt
    have hfst : a.toNat / 4 * 4 + (a.toNat % 4 * 16 + b.toNat / 16) / 16 = a.toNat := by omega
    have hsnd : (a.toNat % 4 * 16 + b.toNat / 16) % 16 * 16 + b.toNat % 16 * 4 / 4 = b.toNat := by
      omega
    have hz : b.toNat % 16 * 4 % 4 = 0 := by omega
    simp only [decode, bind, Option.bind, value_symbol (show a.toNat / 4 < 64 by omega),
      value_symbol (show a.toNat % 4 * 16 + b.toNat / 16 < 64 by omega),
      value_symbol (show b.toNat % 16 * 4 < 64 by omega),
      symbol_ne_pad (show b.toNat % 16 * 4 < 64 by omega), ne_eq, not_true, if_true, if_false, hz,
      ofNat_eq hfst, ofNat_eq hsnd]
  | case4 a b c rest ih =>
    have ha : a.toNat < 256 := a.toNat_lt
    have hb : b.toNat < 256 := b.toNat_lt
    have hc : c.toNat < 256 := c.toNat_lt
    have hfst : a.toNat / 4 * 4 + (a.toNat % 4 * 16 + b.toNat / 16) / 16 = a.toNat := by omega
    have hsnd : (a.toNat % 4 * 16 + b.toNat / 16) % 16 * 16 +
        (b.toNat % 16 * 4 + c.toNat / 64) / 4 = b.toNat := by omega
    have hthd : (b.toNat % 16 * 4 + c.toNat / 64) % 4 * 64 + c.toNat % 64 = c.toNat := by omega
    simp only [decode, bind, Option.bind, value_symbol (show a.toNat / 4 < 64 by omega),
      value_symbol (show a.toNat % 4 * 16 + b.toNat / 16 < 64 by omega),
      value_symbol (show b.toNat % 16 * 4 + c.toNat / 64 < 64 by omega),
      value_symbol (show c.toNat % 64 < 64 by omega),
      symbol_ne_pad (show c.toNat % 64 < 64 by omega), if_false, ih, ofNat_eq hfst, ofNat_eq hsnd,
      ofNat_eq hthd]

end KafkaEdgeRouter.Base64
