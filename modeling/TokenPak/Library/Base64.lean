import Mathlib.Data.List.Basic

/-! The URL-safe base64 code and its lenient decoder. -/

namespace TokenPak.Library.Base64

def alphabet : List Char := "ABCDEFGHIJKLMNOPQRSTUVWXYZabcdefghijklmnopqrstuvwxyz0123456789-_".toList

def symbol (sextet : Nat) : Char := alphabet.getD sextet 'A'

/-- The six bits of a character. The decoder also takes the characters of the plain alphabet. -/
def sextet? (c : Char) : Option Nat :=
  if c = '+' then some 62 else if c = '/' then some 63 else alphabet.idxOf? c

def pad : Char := '='

/-- `urlsafe_b64encode`, three bytes at a time. -/
def encode : List UInt8 → List Char
  | a :: b :: c :: rest =>
    symbol (a.toNat / 4) :: symbol (a.toNat % 4 * 16 + b.toNat / 16) ::
      symbol (b.toNat % 16 * 4 + c.toNat / 64) :: symbol (c.toNat % 64) :: encode rest
  | [a, b] => [symbol (a.toNat / 4), symbol (a.toNat % 4 * 16 + b.toNat / 16), symbol (b.toNat % 16 * 4), pad]
  | [a] => [symbol (a.toNat / 4), symbol (a.toNat % 4 * 16), pad, pad]
  | [] => []

/-- The decoder behind `place` characters of a group: `left` is what they leave over, and `pads` counts the
padding directly in front. Characters outside the alphabet are skipped. -/
def decodeFrom (place left pads : Nat) : List Char → Option (List UInt8)
  | [] => if place = 0 then some [] else none
  | c :: rest =>
    if c = pad then
      if place ≥ 2 then
        if place + (pads + 1) ≥ 4 then some [] else decodeFrom place left (pads + 1) rest
      else decodeFrom place left pads rest
    else
      match sextet? c with
      | none => decodeFrom place left pads rest
      | some six =>
        if place = 0 then decodeFrom 1 six 0 rest
        else if place = 1 then (decodeFrom 2 (six % 16) 0 rest).map (UInt8.ofNat (left * 4 + six / 16) :: ·)
        else if place = 2 then (decodeFrom 3 (six % 4) 0 rest).map (UInt8.ofNat (left * 16 + six / 4) :: ·)
        else (decodeFrom 0 0 0 rest).map (UInt8.ofNat (left * 64 + six) :: ·)

/-- `urlsafe_b64decode` -/
def decode (text : List Char) : Option (List UInt8) := decodeFrom 0 0 0 text

/-- `rstrip("=")` -/
def stripPads (text : List Char) : List Char := (text.reverse.dropWhile (· = pad)).reverse

/-- As many pads as the length lacks to a multiple of four. -/
def addPads (text : List Char) : List Char := text ++ List.replicate ((4 - text.length % 4) % 4) pad

section Symbols

theorem symbols_read :
    ∀ sextet < 64, symbol sextet ≠ pad ∧ sextet? (symbol sextet) = some sextet := by
  decide +kernel

theorem symbol_ne_pad {sextet : Nat} (small : sextet < 64) : symbol sextet ≠ pad :=
  (symbols_read sextet small).1

theorem sextet_symbol {sextet : Nat} (small : sextet < 64) :
    sextet? (symbol sextet) = some sextet :=
  (symbols_read sextet small).2

variable {six left pads : Nat} {rest : List Char}

theorem decodeFrom_first (small : six < 64) :
    decodeFrom 0 left pads (symbol six :: rest) = decodeFrom 1 six 0 rest := by
  rw [decodeFrom, if_neg (symbol_ne_pad small), sextet_symbol small]
  rfl

theorem decodeFrom_second (small : six < 64) :
    decodeFrom 1 left pads (symbol six :: rest) =
      (decodeFrom 2 (six % 16) 0 rest).map (UInt8.ofNat (left * 4 + six / 16) :: ·) := by
  rw [decodeFrom, if_neg (symbol_ne_pad small), sextet_symbol small]
  rfl

theorem decodeFrom_third (small : six < 64) :
    decodeFrom 2 left pads (symbol six :: rest) =
      (decodeFrom 3 (six % 4) 0 rest).map (UInt8.ofNat (left * 16 + six / 4) :: ·) := by
  rw [decodeFrom, if_neg (symbol_ne_pad small), sextet_symbol small]
  rfl

theorem decodeFrom_fourth (small : six < 64) :
    decodeFrom 3 left pads (symbol six :: rest) =
      (decodeFrom 0 0 0 rest).map (UInt8.ofNat (left * 64 + six) :: ·) := by
  rw [decodeFrom, if_neg (symbol_ne_pad small), sextet_symbol small]
  rfl

end Symbols

theorem symbol_ascii (sextet : Nat) : (symbol sextet).toNat < 128 := by
  have checked : alphabet.all (fun c => decide (c.toNat < 128)) = true := by decide
  have all : ∀ c ∈ alphabet, c.toNat < 128 :=
    fun c member => of_decide_eq_true (List.all_eq_true.mp checked c member)
  rw [symbol, List.getD_eq_getElem?_getD]
  cases found : alphabet[sextet]? with
  | none => decide
  | some c => exact all c (List.mem_of_getElem? found)

theorem encode_ascii (bytes : List UInt8) : ∀ c ∈ encode bytes, c.toNat < 128 := by
  have padded : pad.toNat < 128 := by decide
  induction bytes using encode.induct with
  | case1 a b c rest ih =>
    simp only [encode, List.forall_mem_cons]
    exact ⟨symbol_ascii _, symbol_ascii _, symbol_ascii _, symbol_ascii _, ih⟩
  | case2 a b => simp [encode, symbol_ascii, padded]
  | case3 a => simp [encode, symbol_ascii, padded]
  | case4 => simp [encode]

section RoundTrip

theorem byte_of (byte : UInt8) {number : Nat} (same : number = byte.toNat) : UInt8.ofNat number = byte := by
  rw [same, UInt8.ofNat_toNat]

theorem decode_encode (bytes : List UInt8) : decode (encode bytes) = some bytes := by
  have small : ∀ byte : UInt8, byte.toNat < 256 := fun byte => byte.toNat_lt
  induction bytes using encode.induct with
  | case1 a b c rest ih =>
    have first := small a
    have second := small b
    have third := small c
    rw [encode, decode, decodeFrom_first (by omega), decodeFrom_second (by omega),
      decodeFrom_third (by omega), decodeFrom_fourth (by omega)]
    rw [decode] at ih
    rw [ih, byte_of a (by omega), byte_of b (by omega), byte_of c (by omega)]
    rfl
  | case2 a b =>
    have first := small a
    have second := small b
    rw [encode, decode, decodeFrom_first (by omega), decodeFrom_second (by omega),
      decodeFrom_third (by omega)]
    rw [byte_of a (by omega), byte_of b (by omega)]
    rfl
  | case3 a =>
    have first := small a
    rw [encode, decode, decodeFrom_first (by omega), decodeFrom_second (by omega)]
    rw [byte_of a (by omega)]
    rfl
  | case4 => rfl

theorem stripPads_append {data : List Char} (ends : ∀ last ∈ data.getLast?, last ≠ pad) (count : Nat) :
    stripPads (data ++ List.replicate count pad) = data := by
  rw [stripPads, List.reverse_append, List.reverse_replicate]
  have pads : (List.replicate count pad ++ data.reverse).dropWhile (· = pad) = data.reverse := by
    induction count with
    | zero =>
      cases last : data.reverse with
      | nil => rfl
      | cons c rest =>
        have there : c ∈ data.getLast? := by
          rw [← List.head?_reverse, last]
          rfl
        simp [ends c there]
    | succ count ih => simpa [List.replicate_succ] using ih
  rw [pads, List.reverse_reverse]

theorem encode_shape (bytes : List UInt8) :
    ∃ data, encode bytes = data ++ List.replicate ((4 - data.length % 4) % 4) pad ∧
    ∀ last ∈ data.getLast?, last ≠ pad := by
  have small : ∀ byte : UInt8, byte.toNat < 256 := fun byte => byte.toNat_lt
  induction bytes using encode.induct with
  | case1 a b c rest ih =>
    obtain ⟨data, shape, ends⟩ := ih
    refine ⟨symbol (a.toNat / 4) :: symbol (a.toNat % 4 * 16 + b.toNat / 16) ::
      symbol (b.toNat % 16 * 4 + c.toNat / 64) ::
      symbol (c.toNat % 64) :: data, ?_, ?_⟩
    · rw [encode, shape]
      simp only [List.length_cons, List.cons_append]
      rw [show (data.length + 1 + 1 + 1 + 1) % 4 = data.length % 4 by omega]
    · intro last there
      cases data with
      | nil =>
        have same : symbol (c.toNat % 64) = last := by simpa using there
        rw [← same]
        exact symbol_ne_pad (by omega)
      | cons c rest => exact ends last (by simpa [List.getLast?_cons_cons] using there)
  | case2 a b =>
    have second := small b
    refine ⟨[symbol (a.toNat / 4), symbol (a.toNat % 4 * 16 + b.toNat / 16),
      symbol (b.toNat % 16 * 4)], rfl, ?_⟩
    intro last there
    have same : symbol (b.toNat % 16 * 4) = last := by simpa using there
    rw [← same]
    exact symbol_ne_pad (by omega)
  | case3 a =>
    refine ⟨[symbol (a.toNat / 4), symbol (a.toNat % 4 * 16)], rfl, ?_⟩
    intro last there
    have same : symbol (a.toNat % 4 * 16) = last := by simpa using there
    rw [← same]
    exact symbol_ne_pad (by omega)
  | case4 => exact ⟨[], rfl, by simp⟩

/-- The padding can be left out and put back. -/
theorem addPads_stripPads (bytes : List UInt8) : addPads (stripPads (encode bytes)) = encode bytes := by
  obtain ⟨data, shape, ends⟩ := encode_shape bytes
  rw [shape, stripPads_append ends, addPads]

theorem decode_unpadded (bytes : List UInt8) : decode (addPads (stripPads (encode bytes))) = some bytes := by
  rw [addPads_stripPads, decode_encode]

theorem stripPads_ne_nil {bytes : List UInt8} (some_byte : bytes ≠ []) : stripPads (encode bytes) ≠ [] := by
  intro nothing
  have read := decode_unpadded bytes
  rw [nothing] at read
  exact some_byte (Option.some.inj read).symm

end RoundTrip

end TokenPak.Library.Base64
