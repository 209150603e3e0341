import AdaptiveScript.Builtin.Core
import Mathlib.Data.List.Basic
import Mathlib.Tactic.FinCases
import Mathlib.Tactic.IntervalCases

/-! # Binary and Hexadecimal Numerals

  `bin` and `hex` write the two's-complement pattern of an integer, and the
  texts are read here in the usual way, digit after digit from the left, each
  digit by its place in `0123456789abcdef`.

  A numeral is digits of its base without a needless zero in front. Writing a
  number and reading a numeral undo each other (`value_toDigits`,
  `Canonical.eq_toDigits`): what has been read so far is written by the digits
  read so far, and the next digit goes behind them. So a numeral is the only
  one of its number, and two numerals in different bases that have the same
  value are both the right ones. From that all that is said of the two builtins
  follows (`bin_hex_faithful`), and also that the binary text is the
  hexadecimal one with four bits for each digit.
-/

namespace AdaptiveScript.Numeral

/-! ### Reading numerals -/

/-- The digits of all bases, each at the place of its value. -/
def allDigits : List Char :=
  ['0', '1', '2', '3', '4', '5', '6', '7', '8', '9', 'a', 'b', 'c', 'd', 'e', 'f']

/-- The digits of a base. -/
def digits (base : Nat) : List Char := allDigits.take base

/-- The value of a digit. -/
def digitValue (c : Char) : Nat := allDigits.idxOf c

/-- The number that digits denote, read from the left, if those before them
denote `n`. -/
def valueFrom (base n : Nat) (cs : List Char) : Nat :=
  cs.foldl (fun n c => base * n + digitValue c) n

/-- The number that a text denotes in a base. -/
def value (base : Nat) (text : String) : Nat := valueFrom base 0 text.toList

@[simp] theorem valueFrom_nil (base n : Nat) : valueFrom base n [] = n := rfl

@[simp] theorem valueFrom_cons (base n : Nat) (c : Char) (cs : List Char) :
    valueFrom base n (c :: cs) = valueFrom base (base * n + digitValue c) cs := rfl

theorem valueFrom_append (base n : Nat) (cs ds : List Char) :
    valueFrom base n (cs ++ ds) = valueFrom base (valueFrom base n cs) ds :=
  List.foldl_append

/-! ### Digits and their values -/

theorem digitValue_digitChar {d : Nat} (h : d < 16) : digitValue d.digitChar = d := by
  interval_cases d <;> rfl

theorem digitChar_mem {base d : Nat} (hbase : base ≤ 16) (h : d < base) :
    d.digitChar ∈ digits base := by
  have hd : d < 16 := Nat.lt_of_lt_of_le h hbase
  have hall : d.digitChar ∈ allDigits := by
    interval_cases d <;> decide
  rw [digits, List.mem_take_iff_idxOf_lt hall]
  show digitValue d.digitChar < base
  rwa [digitValue_digitChar hd]

theorem digitValue_lt {base : Nat} {c : Char} (h : c ∈ digits base) : digitValue c < base :=
  (List.mem_take_iff_idxOf_lt (List.mem_of_mem_take h)).mp h

theorem digitChar_digitValue {base : Nat} {c : Char} (h : c ∈ digits base) :
    (digitValue c).digitChar = c := by
  have hall : c ∈ allDigits := List.mem_of_mem_take h
  fin_cases hall <;> rfl

theorem digitValue_pos {base : Nat} {c : Char} (h : c ∈ digits base) (hzero : c ≠ '0') :
    0 < digitValue c := by
  rw [Nat.pos_iff_ne_zero]
  intro hvalue
  apply hzero
  rw [← digitChar_digitValue h, hvalue]
  rfl

/-! ### Numerals -/

/-- Digits of a base, at least one, and no zero in front of others. -/
structure Canonical (base : Nat) (cs : List Char) : Prop where
  digits : cs ⊆ digits base
  nonempty : cs ≠ []
  leading : cs.head? = some '0' → cs = ['0']

variable {base : Nat}

/-- What is read behind a number is written behind it. -/
theorem toDigits_valueFrom (hbase : 1 < base) {n : Nat} (hn : 0 < n) {cs : List Char}
    (hcs : cs ⊆ digits base) :
    Nat.toDigits base (valueFrom base n cs) = Nat.toDigits base n ++ cs := by
  induction cs generalizing n with
  | nil => simp
  | cons c cs ih =>
    obtain ⟨hc, hcs⟩ := List.cons_subset.mp hcs
    have hpos : 0 < base * n + digitValue c :=
      Nat.add_pos_left (Nat.mul_pos (by omega) hn) _
    calc Nat.toDigits base (valueFrom base n (c :: cs))
        = Nat.toDigits base (base * n + digitValue c) ++ cs := ih hpos hcs
      _ = Nat.toDigits base n ++ Nat.toDigits base (digitValue c) ++ cs := by
        rw [Nat.toDigits_append_toDigits hbase hn (digitValue_lt hc)]
      _ = Nat.toDigits base n ++ c :: cs := by
        rw [Nat.toDigits_of_lt_base (digitValue_lt hc), digitChar_digitValue hc,
          List.append_assoc, List.singleton_append]

/-- A numeral is what its value is written as. -/
theorem Canonical.eq_toDigits (hbase : 1 < base) {cs : List Char} (h : Canonical base cs) :
    cs = Nat.toDigits base (valueFrom base 0 cs) := by
  cases cs with
  | nil => exact absurd rfl h.nonempty
  | cons c cs =>
    obtain ⟨hc, hcs⟩ := List.cons_subset.mp h.digits
    by_cases hzero : c = '0'
    · obtain rfl : cs = [] := by
        have hlone := h.leading (by rw [hzero]; rfl)
        exact (List.cons.inj hlone).2
      rw [hzero]
      show ['0'] = Nat.toDigits base (base * 0 + 0)
      rw [Nat.mul_zero, Nat.toDigits_zero]
    · have hpos := digitValue_pos hc hzero
      rw [valueFrom_cons, Nat.mul_zero, Nat.zero_add, toDigits_valueFrom hbase hpos hcs,
        Nat.toDigits_of_lt_base (digitValue_lt hc), digitChar_digitValue hc,
        List.singleton_append]

/-- A number written in a base is read back. -/
theorem value_toDigits (hbase : 1 < base) (hbase' : base ≤ 16) (n : Nat) :
    valueFrom base 0 (Nat.toDigits base n) = n := by
  induction n using Nat.base_induction base hbase with
  | single d hd =>
    rw [Nat.toDigits_of_lt_base hd, valueFrom_cons, valueFrom_nil,
      digitValue_digitChar (Nat.lt_of_lt_of_le hd hbase'), Nat.mul_zero, Nat.zero_add]
  | digit n d hd hn ih =>
    rw [← Nat.toDigits_append_toDigits hbase hn hd, valueFrom_append, ih,
      Nat.toDigits_of_lt_base hd, valueFrom_cons, valueFrom_nil,
      digitValue_digitChar (Nat.lt_of_lt_of_le hd hbase')]

/-- A number is written as a numeral. -/
theorem canonical_toDigits (hbase : 1 < base) (hbase' : base ≤ 16) (n : Nat) :
    Canonical base (Nat.toDigits base n) := by
  induction n using Nat.base_induction base hbase with
  | single d hd =>
    rw [Nat.toDigits_of_lt_base hd]
    exact {
      digits := by simpa using digitChar_mem hbase' hd
      nonempty := by simp
      leading := by simp }
  | digit n d hd hn ih =>
    rw [← Nat.toDigits_append_toDigits hbase hn hd, Nat.toDigits_of_lt_base hd]
    constructor
    · exact List.append_subset.mpr ⟨ih.digits, by simpa using digitChar_mem hbase' hd⟩
    · simp
    · intro hhead
      rw [List.head?_append_of_ne_nil _ ih.nonempty] at hhead
      -- a zero in front would be all of the digits before the last
      have hvalue := value_toDigits hbase hbase' n
      rw [ih.leading hhead] at hvalue
      have hzero : valueFrom base 0 ['0'] = 0 := by simp [digitValue, allDigits]
      omega

/-! ### Four bits for a digit -/

/-- The four bits of a hexadecimal digit, the highest first. -/
def fourBits (c : Char) : List Char :=
  [8, 4, 2, 1].map fun place => (digitValue c / place % 2).digitChar

/-- Digits without the zeros in front; of zeros alone one is kept. -/
def trimmed (cs : List Char) : List Char :=
  match cs.dropWhile (· == '0') with
  | [] => ['0']
  | c :: rest => c :: rest

theorem fourBits_subset (c : Char) : fourBits c ⊆ digits 2 := by
  intro bit hbit
  obtain ⟨place, -, rfl⟩ := List.mem_map.mp hbit
  exact digitChar_mem (by decide) (Nat.mod_lt _ (by decide))

theorem valueFrom_fourBits {c : Char} (h : c ∈ digits 16) (n : Nat) :
    valueFrom 2 n (fourBits c) = 16 * n + digitValue c := by
  have hbit : ∀ place, digitValue (digitValue c / place % 2).digitChar =
      digitValue c / place % 2 := fun place => digitValue_digitChar (by omega)
  have hlt := digitValue_lt h
  simp only [fourBits, List.map_cons, List.map_nil, valueFrom_cons, valueFrom_nil, hbit]
  omega

/-- Four bits for each digit denote the same number in base 2. -/
theorem valueFrom_flatMap_fourBits {cs : List Char} (hcs : cs ⊆ digits 16) (n : Nat) :
    valueFrom 2 n (cs.flatMap fourBits) = valueFrom 16 n cs := by
  induction cs generalizing n with
  | nil => rfl
  | cons c cs ih =>
    obtain ⟨hc, hcs⟩ := List.cons_subset.mp hcs
    rw [List.flatMap_cons, valueFrom_append, valueFrom_fourBits hc, ih hcs, valueFrom_cons]

/-- Zeros in front do not count. -/
theorem valueFrom_dropWhile (cs : List Char) :
    valueFrom base 0 (cs.dropWhile (· == '0')) = valueFrom base 0 cs := by
  induction cs with
  | nil => rfl
  | cons c cs ih =>
    by_cases hzero : c = '0'
    · subst hzero
      rw [List.dropWhile_cons_of_pos (by decide), ih]
      rfl
    · rw [List.dropWhile_cons_of_neg (by simpa using hzero)]

theorem valueFrom_trimmed (cs : List Char) :
    valueFrom base 0 (trimmed cs) = valueFrom base 0 cs := by
  rw [← valueFrom_dropWhile cs, trimmed]
  cases cs.dropWhile (· == '0') with
  | nil => rfl
  | cons c rest => rfl

/-- Without the zeros in front, digits are a numeral. -/
theorem canonical_trimmed (hbase : 1 < base) (hbase' : base ≤ 16) {cs : List Char}
    (hcs : cs ⊆ digits base) : Canonical base (trimmed cs) := by
  have hrest : cs.dropWhile (· == '0') ⊆ digits base :=
    fun _ hc => hcs (List.dropWhile_subset _ hc)
  have hhead := List.head?_dropWhile_not (· == '0') cs
  rw [trimmed]
  cases hdrop : cs.dropWhile (· == '0') with
  | nil =>
    have hzero : '0' ∈ digits base := digitChar_mem hbase' (Nat.lt_trans Nat.zero_lt_one hbase)
    exact ⟨by simpa using hzero, by simp, fun _ => rfl⟩
  | cons c rest =>
    rw [hdrop] at hrest hhead
    refine ⟨hrest, by simp, fun hzero => ?_⟩
    obtain rfl : c = '0' := Option.some.inj hzero
    simp at hhead

/-- The binary numeral of a number is its hexadecimal numeral with four bits
for each digit, less the zeros in front. -/
theorem toDigits_two_eq_trimmed (n : Nat) :
    Nat.toDigits 2 n = trimmed ((Nat.toDigits 16 n).flatMap fourBits) := by
  have hhex : Canonical 16 (Nat.toDigits 16 n) := canonical_toDigits (by decide) (by decide) n
  have hbits : (Nat.toDigits 16 n).flatMap fourBits ⊆ digits 2 :=
    fun bit hbit => by
      obtain ⟨c, -, hc⟩ := List.mem_flatMap.mp hbit
      exact fourBits_subset c hc
  have hvalue : valueFrom 2 0 (trimmed ((Nat.toDigits 16 n).flatMap fourBits)) = n := by
    rw [valueFrom_trimmed, valueFrom_flatMap_fourBits hhex.digits,
      value_toDigits (by decide) (by decide)]
  rw [(canonical_trimmed (by decide) (by decide) hbits).eq_toDigits (by decide), hvalue]

example : trimmed (['0', 'a'].flatMap fourBits) = ['1', '0', '1', '0'] := by decide

/-! ### Bit patterns -/

/-- The two's-complement pattern of an integer, read as a natural number. -/
theorem toNat_toUInt64 (n : Int64) : (n.toUInt64.toNat : Int) = n.toInt % 2 ^ 64 := by
  have hsigned : n.toInt = (n.toUInt64.toNat : Int).bmod (2 ^ 64) :=
    BitVec.toInt_eq_toNat_bmod n.toBitVec
  have hlt := n.toUInt64.toNat_lt
  calc (n.toUInt64.toNat : Int)
      = n.toUInt64.toNat % (2 ^ 64 : Nat) := (Int.emod_eq_of_lt (by omega) (by omega)).symm
    _ = (n.toUInt64.toNat : Int).bmod (2 ^ 64) % (2 ^ 64 : Nat) := Int.bmod_emod.symm
    _ = n.toInt % 2 ^ 64 := by rw [← hsigned]; rfl

/-- Integers with the same pattern are the same. -/
theorem eq_of_pattern {n m : Int64} (h : n.toInt % 2 ^ 64 = m.toInt % 2 ^ 64) : n = m := by
  have hn : -2 ^ 63 ≤ n.toInt ∧ n.toInt < 2 ^ 63 := ⟨n.le_toInt, n.toInt_lt⟩
  have hm : -2 ^ 63 ≤ m.toInt ∧ m.toInt < 2 ^ 63 := ⟨m.le_toInt, m.toInt_lt⟩
  exact Int64.toInt_inj.mp (by omega)

/-- The pattern of a negative integer has its highest bit set. -/
theorem le_pattern_of_neg {n : Int64} (h : n < 0) : 2 ^ 63 ≤ n.toUInt64.toNat := by
  have hneg : n.toInt < 0 := by
    rw [← Int64.toInt_zero]
    exact Int64.lt_iff_toInt_lt.mp h
  have hlower : -2 ^ 63 ≤ n.toInt := n.le_toInt
  have hpattern := toNat_toUInt64 n
  omega

/-- A text shows the two's-complement pattern of an integer in a base, in at
most `width` digits. -/
structure Shows (base width : Nat) (n : Int64) (text : String) : Prop where
  value : (value base text : Int) = n.toInt % 2 ^ 64
  digits : ∀ c ∈ text.toList, c ∈ digits base
  leading : text.toList.head? = some '0' → n = 0
  zero : n = 0 → text = "0"
  length_le : text.length ≤ width
  length_of_neg : n < 0 → text.length = width

/-- Texts that show different integers are different. -/
theorem Shows.inj {base width : Nat} {n m : Int64} {text : String} (h : Shows base width n text)
    (h' : Shows base width m text) : n = m :=
  eq_of_pattern (h.value.symm.trans h'.value)

/-- In a base in which 64 bits need `k + 1` digits, and 63 bits no more than
`k`, the numeral of an integer shows its pattern. -/
theorem shows_numeral {base k : Nat} (hbase : 1 < base) (hbase' : base ≤ 16) (hk : 0 < k)
    (hall : 2 ^ 64 ≤ base ^ (k + 1)) (hhalf : base ^ k ≤ 2 ^ 63) (n : Int64) :
    Shows base (k + 1) n (Builtin.numeral base n) := by
  have hnumeral := canonical_toDigits hbase hbase' n.toUInt64.toNat
  have hvalue := value_toDigits hbase hbase' n.toUInt64.toNat
  have hlength : (Builtin.numeral base n).length ≤ k + 1 := by
    rw [Builtin.numeral, String.length_ofList, Nat.length_toDigits_le_iff hbase (by omega)]
    exact Nat.lt_of_lt_of_le n.toUInt64.toNat_lt hall
  refine ⟨?value, ?digits, ?leading, ?zero, hlength, ?length_of_neg⟩
  case value =>
    rw [value, Builtin.numeral, String.toList_ofList, hvalue, toNat_toUInt64]
  case digits =>
    intro c hc
    rw [Builtin.numeral, String.toList_ofList] at hc
    exact hnumeral.digits hc
  case leading =>
    intro hhead
    rw [Builtin.numeral, String.toList_ofList] at hhead
    rw [hnumeral.leading hhead] at hvalue
    apply eq_of_pattern
    rw [← toNat_toUInt64, ← hvalue]
    rfl
  case zero =>
    rintro rfl
    exact congrArg String.ofList (Nat.toDigits_zero base)
  case length_of_neg =>
    intro hneg
    have hmore : ¬ (Builtin.numeral base n).length ≤ k := by
      rw [Builtin.numeral, String.length_ofList, Nat.length_toDigits_le_iff hbase hk]
      have hpattern := le_pattern_of_neg hneg
      omega
    omega

/-! ### The builtins -/

/-- The text that `bin` gives for an integer and the text that `hex` gives both
show its two's-complement pattern, in at most 64 and 16 digits, so that each of
them determines the integer. The first is the second with four bits for each
digit, less the zeros in front. -/
theorem bin_hex_faithful (i : Builtin.Invocation) :
    (∀ n : Int64, ∃ binary hexadecimal : String,
      (Builtin.bin { i with args := [.int n] }).result = .ok (.str binary) ∧
      (Builtin.hex { i with args := [.int n] }).result = .ok (.str hexadecimal) ∧
      Shows 2 64 n binary ∧ Shows 16 16 n hexadecimal ∧
      binary.toList = trimmed (hexadecimal.toList.flatMap fourBits)) ∧
    (Function.Injective fun n : Int64 => (Builtin.bin { i with args := [.int n] }).result) ∧
    (Function.Injective fun n : Int64 => (Builtin.hex { i with args := [.int n] }).result) := by
  have hbin : ∀ n, Shows 2 64 n (Builtin.numeral 2 n) :=
    shows_numeral (by decide) (by decide) (by decide) (by decide) (by decide)
  have hhex : ∀ n, Shows 16 16 n (Builtin.numeral 16 n) :=
    shows_numeral (by decide) (by decide) (by decide) (by decide) (by decide)
  refine ⟨fun n => ⟨_, _, rfl, rfl, hbin n, hhex n, ?_⟩, fun n m h => ?_, fun n m h => ?_⟩
  · rw [Builtin.numeral, Builtin.numeral, String.toList_ofList, String.toList_ofList]
    exact toDigits_two_eq_trimmed n.toUInt64.toNat
  · have htext : Builtin.numeral 2 n = Builtin.numeral 2 m := Value.str.inj (Except.ok.inj h)
    exact (hbin n).inj (htext ▸ hbin m)
  · have htext : Builtin.numeral 16 n = Builtin.numeral 16 m := Value.str.inj (Except.ok.inj h)
    exact (hhex n).inj (htext ▸ hhex m)

end AdaptiveScript.Numeral
