import AdaptiveScript.Builtin.Core
import AdaptiveScript.Proofs.Value.Layout

/-! # The Encoding of Values and Their Equality

  A value is compared by one recursion and encoded for the hash by another.
  The encoding is finer. It determines the value bit by bit
  (`Value.writes_inj`), and nothing that follows it can be mistaken for a part
  of it (`Value.writes_append_inj`): a list gives its length first, and a text
  is closed.

  Equality is coarser in one point only. It takes the two zeros for the same
  float, and the encoding keeps their signs. So equal values have equal
  encodings, and with them equal hashes, exactly when no zero of the one stands
  where the other has a zero of the other sign
  (`Value.writes_eq_iff_of_equals`).
-/

namespace AdaptiveScript

/-! ### Bytes of texts -/

/-- Reading bytes from a place on adds those from there to the end. -/
theorem read_from (bytes : ByteArray) (place : Nat) (before : List UInt8) :
    ByteArray.toList.loop bytes place before =
      before.reverse ++ bytes.data.toList.drop place := by
  fun_induction ByteArray.toList.loop bytes place before with
  | case1 place before hlt ih =>
    have hplace : place < bytes.data.toList.length := by simpa using hlt
    have hnext : bytes.data.toList.drop place =
        bytes.get! place :: bytes.data.toList.drop (place + 1) := by
      rw [← List.getElem_cons_drop hplace]
      simp [ByteArray.get!, getElem!_pos bytes.data place hlt]
    rw [ih, hnext]
    simp
  | case2 place before hge =>
    have hend : bytes.size ≤ place := Nat.le_of_not_lt hge
    simp [hend]

theorem toList_eq_data (bytes : ByteArray) : bytes.toList = bytes.data.toList := by
  unfold ByteArray.toList
  rw [read_from, List.reverse_nil, List.nil_append, List.drop_zero]

/-- Texts with the same bytes are the same. -/
theorem toUTF8_inj {s t : String} (h : s.toUTF8.toList = t.toUTF8.toList) : s = t := by
  rw [toList_eq_data, toList_eq_data] at h
  exact String.toByteArray_inj.mp (ByteArray.ext (Array.toList_inj.mp h))

namespace Value

/-! ### The encoding determines the value -/

theorem textWrites_append_inj {s t : String} {u v : List Write}
    (h : textWrites s ++ u = textWrites t ++ v) : s = t ∧ u = v := by
  simp only [textWrites, List.cons_append, List.nil_append, List.cons.injEq,
    Write.bytes.injEq, true_and] at h
  exact ⟨toUTF8_inj h.1, h.2⟩

theorem boolWrites_append_inj {a b : Bool} {u v : List Write}
    (h : boolWrites a ++ u = boolWrites b ++ v) : a = b ∧ u = v := by
  cases a <;> cases b <;> simp_all [boolWrites]

/-- Kept as they are, writes can be told apart. -/
theorem faithful_kept : Layout.Faithful (fun w => [w]) fun _ => True where
  word w w' u v halike := by simpa using halike
  bool b b' u v halike := by
    rw [List.flatMap_singleton', List.flatMap_singleton'] at halike
    exact boolWrites_append_inj halike
  text s s' u v halike := by
    rw [List.flatMap_singleton', List.flatMap_singleton'] at halike
    exact textWrites_append_inj halike
  count n n' _ _ u v halike := by simpa using halike
  identity o o' _ _ u v halike := by simpa using halike

theorem tells_kept (a b : Value) : Layout.Tells (fun w => [w]) a.writes b.writes (a = b) :=
  faithful_kept.tells_writes (fun _ _ => trivial) fun _ _ => trivial

/-- Where the encodings of two values begin alike, the values are the same, and
so is what follows. -/
theorem writes_append_inj {a b : Value} {u v : List Write} (h : a.writes ++ u = b.writes ++ v) :
    a = b ∧ u = v := by
  apply tells_kept a b
  rw [List.flatMap_singleton', List.flatMap_singleton']
  exact h

/-- Values with the same encoding are the same. -/
theorem writes_inj {a b : Value} (h : a.writes = b.writes) : a = b := by
  have happend : a.writes ++ [] = b.writes ++ [] := by rw [h]
  exact (writes_append_inj happend).1

/-! ### Equality and the signs of zeros -/

mutual

/-- Whether somewhere one value has a zero and the other, in the same place, a
zero of the other sign. -/
def zerosDiffer : Value → Value → Bool
  | .float x, .float y => x == 0 && y == 0 && x.toBits != y.toBits
  | .list as, .list bs => zerosDifferAll as bs
  | _, _ => false

/-- The same of lists, item by item. -/
def zerosDifferAll : List Value → List Value → Bool
  | a :: as, b :: bs => a.zerosDiffer b || zerosDifferAll as bs
  | _, _ => false

end

/-- Equal floats are the same, or both are zeros. -/
theorem eq_or_zeros_of_beq {x y : Float} (h : (x == y) = true) :
    x = y ∨ (x == 0) = true ∧ (y == 0) = true := by
  obtain ⟨-, -, hsame | ⟨hx, hy⟩ | ⟨hx, hy⟩⟩ := Float.beq_iff_ne_nan_and_eq.mp h
  · exact .inl hsame
  · subst hx hy
    exact .inr (by decide +kernel)
  · subst hx hy
    exact .inr (by decide +kernel)

mutual

/-- Equal values are the same, up to the signs of their zeros. -/
theorem eq_of_equals : ∀ {a b : Value}, a.equals b = true → a.zerosDiffer b = false → a = b
  | .nil, b, h, _ => by
    cases b <;> simp_all [equals]
  | .bool x, b, h, _ => by
    cases b <;> simp_all [equals]
  | .int n, b, h, _ => by
    cases b <;> simp_all [equals]
  | .float x, b, h, hzeros => by
    cases b with
    | float y =>
      rw [equals] at h
      rcases eq_or_zeros_of_beq h with hsame | ⟨hx, hy⟩
      · rw [hsame]
      · -- two zeros with the same bits are the same zero
        rw [zerosDiffer, hx, hy] at hzeros
        have hbits : x.toBits = y.toBits := by simpa using hzeros
        rw [Float.toBits_inj.mp hbits]
    | _ => simp [equals] at h
  | .str s, b, h, _ => by
    cases b <;> simp_all [equals]
  | .list items, b, h, hzeros => by
    cases b with
    | list others =>
      rw [equals] at h
      rw [zerosDiffer] at hzeros
      rw [eq_of_equalsAll h hzeros]
    | _ => simp [equals] at h
  | .object id, b, h, _ => by
    cases b <;> simp_all [equals]
  | .callable name builtin, b, h, _ => by
    cases b <;> simp_all [equals]

theorem eq_of_equalsAll : ∀ {as bs : List Value}, equalsAll as bs = true →
    zerosDifferAll as bs = false → as = bs
  | [], bs, h, _ => by
    cases bs <;> simp_all [equalsAll]
  | a :: as, [], h, _ => by
    simp [equalsAll] at h
  | a :: as, b :: bs, h, hzeros => by
    rw [equalsAll, Bool.and_eq_true] at h
    rw [zerosDifferAll, Bool.or_eq_false_iff] at hzeros
    rw [eq_of_equals h.1 hzeros.1, eq_of_equalsAll h.2 hzeros.2]

end

mutual

/-- The zeros of a value do not differ from themselves. -/
theorem zerosDiffer_self : ∀ a : Value, a.zerosDiffer a = false
  | .nil => rfl
  | .bool _ => rfl
  | .int _ => rfl
  | .float x => by simp [zerosDiffer]
  | .str _ => rfl
  | .list items => by
    rw [zerosDiffer]
    exact zerosDifferAll_self items
  | .object _ => rfl
  | .callable _ _ => rfl

theorem zerosDifferAll_self : ∀ as : List Value, zerosDifferAll as as = false
  | [] => rfl
  | a :: as => by
    rw [zerosDifferAll, zerosDiffer_self a, zerosDifferAll_self as]
    rfl

end

/-! ### Equal values and their hashes -/

/-- Equal values have the same encoding exactly when their zeros do not differ,
and `id` then gives the same integer for both. -/
theorem writes_eq_iff_of_equals {a b : Value} (h : (a == b) = true) :
    (a.writes = b.writes ↔ a.zerosDiffer b = false) ∧
      (a.zerosDiffer b = false → ∀ i : Builtin.Invocation,
        (Builtin.id { i with args := [a] }).result = (Builtin.id { i with args := [b] }).result) := by
  have hequal : a.equals b = true := h
  refine ⟨⟨?_, ?_⟩, ?_⟩
  · intro hwrites
    rw [writes_inj hwrites]
    exact zerosDiffer_self b
  · intro hzeros
    rw [eq_of_equals hequal hzeros]
  · intro hzeros i
    rw [eq_of_equals hequal hzeros]

/-- A negative zero deep in a list. -/
def nestedZero : Value := .list [.str "x", .list [.float (-0)]]

/-- The same list with a zero that is a product of numbers. -/
def nestedProduct : Value := .list [.str "x", .list [.float (0 * -1)]]

/-- The same list with a positive zero. -/
def nestedPositive : Value := .list [.str "x", .list [.float 0]]

/-- All three lists are equal, and only those with zeros of one sign have the
same encoding. -/
theorem writes_nested_zeros :
    (nestedZero == nestedProduct) = true ∧ (nestedZero == nestedPositive) = true ∧
      nestedZero.writes = nestedProduct.writes ∧ nestedZero.writes ≠ nestedPositive.writes := by
  have hproduct : (nestedZero == nestedProduct) = true := by decide +kernel
  have hpositive : (nestedZero == nestedPositive) = true := by decide +kernel
  have hagree : nestedZero.zerosDiffer nestedProduct = false := by decide +kernel
  have hdiffer : nestedZero.zerosDiffer nestedPositive = true := by decide +kernel
  refine ⟨hproduct, hpositive, (writes_eq_iff_of_equals hproduct).1.mpr hagree, ?_⟩
  intro hwrites
  have hsame := (writes_eq_iff_of_equals hpositive).1.mp hwrites
  rw [hdiffer] at hsame
  cases hsame

/-- A call of `id` on one value, with the hasher that is run. -/
def identified (v : Value) : Builtin.Invocation :=
  { args := [v], names := fun _ => "", now := 0, address := fun _ => 0
    hasher := Hash.multiplicative }

/-- The two zeros are equal, and neither their encodings nor the integers that
`id` gives for them are. -/
theorem zeros_hash_apart :
    (Value.float 0 == Value.float (-0)) = true ∧
      (Value.float 0).writes ≠ (Value.float (-0)).writes ∧
      (Builtin.id (identified (.float 0))).result = .ok (.int 2204780655671368902) ∧
      (Builtin.id (identified (.float (-0)))).result = .ok (.int 2204780655704923334) := by
  have hidentity : ∀ x, (Builtin.id (identified (.float x))).result =
      .ok (.int ((Value.float x).hash Hash.multiplicative fun _ => 0).toInt64) := fun _ => rfl
  have hpositive : ((Value.float 0).hash Hash.multiplicative fun _ => 0).toInt64 =
      2204780655671368902 := by
    decide +kernel
  have hnegative : ((Value.float (-0)).hash Hash.multiplicative fun _ => 0).toInt64 =
      2204780655704923334 := by
    decide +kernel
  refine ⟨by decide +kernel, ?_, by rw [hidentity, hpositive], by rw [hidentity, hnegative]⟩
  intro hwrites
  have hsame : (0 : Float) = -0 := Value.float.inj (writes_inj hwrites)
  have hbits : (0 : Float).toBits = (-0 : Float).toBits := by rw [← hsame]
  exact absurd hbits (by decide +kernel)

end Value

end AdaptiveScript
