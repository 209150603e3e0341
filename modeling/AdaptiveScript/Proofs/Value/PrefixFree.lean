import AdaptiveScript.Proofs.Value.Encoding

/-! # The Encoding of Values Is Prefix Free

  What a hasher receives of a value is a row of bytes: a word is eight of them,
  the least significant first, a boolean is one, and a text is its UTF-8 bytes
  and the byte `0xff`. A list writes its length and its items, with no mark at
  the end.

  No value's encoding begins with the encoding of another one
  (`Value.encoding_unambiguous`), neither as a list of writes nor, for values
  that can exist at the same time, as bytes. Words are told apart by their
  width, and texts by their last byte, which occurs in no UTF-8. So if `id`
  gives one integer for two values that are not identical, and neither is an
  object, then the hasher has received two different lists of writes, and
  answered both with the same hash.
-/

namespace AdaptiveScript

/-! ### Bytes of words -/

/-- The lowest `k` bytes of a number, the least significant first. -/
def lowBytes : Nat → Nat → List UInt8
  | 0, _ => []
  | k + 1, n => UInt8.ofNat n :: lowBytes k (n / 256)

@[simp] theorem length_lowBytes (k n : Nat) : (lowBytes k n).length = k := by
  induction k generalizing n with
  | zero => rfl
  | succ k ih => rw [lowBytes, List.length_cons, ih]

/-- The bytes of a number read back as the number. -/
theorem littleEndian_lowBytes {k n : Nat} (h : n < 256 ^ k) :
    Hash.littleEndian (lowBytes k n) = UInt64.ofNat n := by
  induction k generalizing n with
  | zero =>
    obtain rfl : n = 0 := by simpa using h
    rfl
  | succ k ih =>
    have hhigh : n / 256 < 256 ^ k := by
      rw [Nat.div_lt_iff_lt_mul (by decide)]
      simpa [pow_succ] using h
    show Hash.littleEndian (lowBytes k (n / 256)) * 256 + (UInt8.ofNat n).toUInt64 = UInt64.ofNat n
    rw [ih hhigh]
    apply UInt64.toNat_inj.mp
    simp only [UInt64.toNat_add, UInt64.toNat_mul, UInt64.toNat_ofNat', UInt8.toNat_toUInt64,
      UInt8.toNat_ofNat', UInt64.toNat_ofNat]
    omega

/-- The eight bytes of a word, the least significant first. -/
def wordBytes (w : UInt64) : List UInt8 := lowBytes 8 w.toNat

/-- Eight bytes, and no more, make a word. -/
theorem wordBytes_append_inj {w w' : UInt64} {u v : List UInt8}
    (h : wordBytes w ++ u = wordBytes w' ++ v) : w = w' ∧ u = v := by
  obtain ⟨hbytes, huv⟩ := List.append_inj h (by simp [wordBytes])
  have hread : ∀ x : UInt64, Hash.littleEndian (wordBytes x) = x := fun x => by
    rw [wordBytes, littleEndian_lowBytes x.toNat_lt, UInt64.ofNat_toNat]
  rw [← hread w, ← hread w', hbytes]
  exact ⟨rfl, huv⟩

/-! ### Bytes of texts -/

/-- UTF-8 has no use for the byte `0xff`. -/
theorem ff_notMem_utf8EncodeChar (c : Char) : 0xff ∉ String.utf8EncodeChar c := by
  intro h
  have hcode := c.toNat_val
  simp only [String.utf8EncodeChar] at h
  split_ifs at h
  all_goals
    simp [← UInt8.toNat_inj] at h
    omega

theorem ff_notMem_toUTF8 (s : String) : 0xff ∉ s.toUTF8.toList := by
  intro h
  rw [toList_eq_data, String.toUTF8_eq_toByteArray, ← String.utf8Encode_toList, List.utf8Encode,
    List.toList_data_toByteArray, List.mem_flatMap] at h
  obtain ⟨c, -, hc⟩ := h
  exact ff_notMem_utf8EncodeChar c hc

/-- A mark that occurs in neither row of bytes ends both at the same place. -/
theorem marked_append_inj {mark : UInt8} {bs bs' u v : List UInt8} (hbs : mark ∉ bs)
    (hbs' : mark ∉ bs') (h : bs ++ mark :: u = bs' ++ mark :: v) : bs = bs' ∧ u = v := by
  have hplace : bs.length = bs'.length := by
    have hfirst := congrArg (List.idxOf mark) h
    rwa [List.idxOf_append_of_notMem hbs, List.idxOf_append_of_notMem hbs', List.idxOf_cons_self,
      List.idxOf_cons_self, Nat.add_zero, Nat.add_zero] at hfirst
  obtain ⟨hsame, hrest⟩ := List.append_inj h hplace
  exact ⟨hsame, List.tail_eq_of_cons_eq hrest⟩

/-! ### Bytes of values -/

/-- The bytes of a write, with objects at the given addresses. -/
def Write.toBytes (address : Addresses) : Layout UInt8
  | .word w => wordBytes w
  | .byte b => [b]
  | .bytes bs => bs
  | .count n => wordBytes (UInt64.ofNat n)
  | .identity o => wordBytes (address o)

/-- The bytes of a value, in order. -/
def Value.toBytes (address : Addresses) (v : Value) : List UInt8 :=
  v.writes.flatMap (Write.toBytes address)

/-- Two values can exist at the same time: every length in them fits in a word,
and their objects lie at different addresses. -/
structure Coexist (address : Addresses) (a b : Value) : Prop where
  lengths : ∀ n, .count n ∈ a.writes ++ b.writes → n < UInt64.size
  addresses : ∀ o o', .identity o ∈ a.writes ++ b.writes → .identity o' ∈ a.writes ++ b.writes →
    address o = address o' → o = o'

variable {address : Addresses} {a b : Value}

theorem Coexist.symm (h : Coexist address a b) : Coexist address b a where
  lengths n hn := h.lengths n (by simpa [or_comm] using hn)
  addresses o o' ho ho' := h.addresses o o' (by simpa [or_comm] using ho)
    (by simpa [or_comm] using ho')

/-- As bytes, the writes of values that exist at the same time can be told apart. -/
theorem Coexist.faithful (h : Coexist address a b) :
    Layout.Faithful (Write.toBytes address) (· ∈ a.writes ++ b.writes) where
  word w w' u v halike := by
    rw [List.flatMap_singleton, List.flatMap_singleton] at halike
    exact wordBytes_append_inj halike
  bool x y u v halike := by
    cases x <;> cases y <;> simp_all [Value.boolWrites, Write.toBytes]
  text s s' u v halike := by
    have hbytes : s.toUTF8.toList ++ 0xff :: u = s'.toUTF8.toList ++ 0xff :: v := by
      simpa [Value.textWrites, Write.toBytes] using halike
    obtain ⟨hsame, huv⟩ := marked_append_inj (ff_notMem_toUTF8 s) (ff_notMem_toUTF8 s') hbytes
    exact ⟨toUTF8_inj hsame, huv⟩
  count n n' hn hn' u v halike := by
    rw [List.flatMap_singleton, List.flatMap_singleton] at halike
    obtain ⟨hword, huv⟩ := wordBytes_append_inj halike
    have hnat := congrArg UInt64.toNat hword
    rw [UInt64.toNat_ofNat_of_lt' (h.lengths n hn),
      UInt64.toNat_ofNat_of_lt' (h.lengths n' hn')] at hnat
    exact ⟨hnat, huv⟩
  identity o o' ho ho' u v halike := by
    rw [List.flatMap_singleton, List.flatMap_singleton] at halike
    obtain ⟨hword, huv⟩ := wordBytes_append_inj halike
    exact ⟨h.addresses o o' ho ho' hword, huv⟩

theorem Coexist.eq_of_initial (h : Coexist address a b)
    (hinitial : a.toBytes address <+: b.toBytes address) : a = b := by
  have htells : Layout.Tells (Write.toBytes address) a.writes b.writes (a = b) :=
    h.faithful.tells_writes (fun w hw => List.mem_append_left _ hw)
      fun w hw => List.mem_append_right _ hw
  exact htells.of_initial hinitial

/-! ### What the hasher receives -/

/-- Two different lists of writes, neither the beginning of the other, that the
hasher answers with the same hash. -/
structure Collision (hasher : Hasher) (ws ws' : List Write) : Prop where
  notInitial : ¬ ws <+: ws'
  notExtension : ¬ ws' <+: ws
  sameHash : hasher ws = hasher ws'

namespace Value

theorem toBytes_eq_received (address : Addresses) (v : Value) :
    v.toBytes address = (v.received address).flatMap (Write.toBytes address) := by
  have hbytes : ∀ w, Write.toBytes address (w.received address) = Write.toBytes address w :=
    fun w => by cases w <;> rfl
  simp only [toBytes, received, List.flatMap_map, hbytes]

end Value

theorem Coexist.eq_of_received (h : Coexist address a b)
    (hinitial : a.received address <+: b.received address) : a = b := by
  apply h.eq_of_initial
  rw [Value.toBytes_eq_received, Value.toBytes_eq_received]
  exact hinitial.flatMap _

namespace Value

/-! ### Identical values -/

mutual

/-- Values that nothing tells apart: the same constructor with the same content,
floats with the same bits, objects with the same identity. -/
def Identical : Value → Value → Prop
  | .nil, .nil => True
  | .bool x, .bool y => x = y
  | .int n, .int m => n = m
  | .float x, .float y => x.toBits = y.toBits
  | .str s, .str t => s = t
  | .list items, .list others => IdenticalAll items others
  | .object o, .object o' => o = o'
  | .callable name builtin, .callable name' builtin' => name = name' ∧ builtin = builtin'
  | _, _ => False

/-- Lists of the same length whose items are identical in pairs. -/
def IdenticalAll : List Value → List Value → Prop
  | [], [] => True
  | a :: as, b :: bs => a.Identical b ∧ IdenticalAll as bs
  | _, _ => False

end

mutual

/-- Identical values are the same value. A float is its bits, of which there is
one pattern for all NaNs here: a program whose NaNs differ in their bits has
values that this library does not tell apart. -/
theorem identical_iff : ∀ {a b : Value}, a.Identical b ↔ a = b
  | .nil, b => by
    cases b <;> simp [Identical]
  | .bool x, b => by
    cases b <;> simp [Identical]
  | .int n, b => by
    cases b <;> simp [Identical]
  | .float x, b => by
    cases b <;> simp [Identical, Float.toBits_inj]
  | .str s, b => by
    cases b <;> simp [Identical]
  | .list items, b => by
    cases b with
    | list others => rw [Identical, identicalAll_iff, Value.list.injEq]
    | _ => simp [Identical]
  | .object o, b => by
    cases b <;> simp [Identical]
  | .callable name builtin, b => by
    cases b <;> simp [Identical]

theorem identicalAll_iff : ∀ {as bs : List Value}, IdenticalAll as bs ↔ as = bs
  | [], bs => by
    cases bs <;> simp [IdenticalAll]
  | a :: as, [] => by
    simp [IdenticalAll]
  | a :: as, b :: bs => by
    rw [IdenticalAll, identical_iff, identicalAll_iff, List.cons.injEq]

end

/-! ### No encoding begins with another -/

/-- Where the encoding of one value is a beginning of the encoding of another,
the values are the same. -/
theorem eq_of_initial_writes (h : a.writes <+: b.writes) : a = b := by
  apply (tells_kept a b).of_initial
  rw [List.flatMap_singleton', List.flatMap_singleton']
  exact h

/-- The integer that `id` gives for a value that is no object is its hash. -/
theorem id_eq_iff {i : Builtin.Invocation} (ha : a.object? = none) (hb : b.object? = none) :
    (Builtin.id { i with args := [a] }).result = (Builtin.id { i with args := [b] }).result ↔
      a.hash i.hasher i.address = b.hash i.hasher i.address := by
  have hresult : ∀ v : Value, v.object? = none →
      (Builtin.id { i with args := [v] }).result = .ok (.int (v.hash i.hasher i.address).toInt64) :=
    fun v hv => by
      cases v with
      | object o => cases hv
      | _ => rfl
  rw [hresult a ha, hresult b hb]
  constructor
  · intro h
    injection h with hvalue
    injection hvalue with hint
    exact UInt64.toBitVec_inj.mp (congrArg Int64.toBitVec hint)
  · intro h
    rw [h]

/-- The encoding of one value is equal to the encoding of another, or a
beginning of it, only if the values are identical. For values that exist at the
same time that holds of their bytes as well, and two that are not identical get
the same integer from `id` only by a collision in the hasher. -/
theorem encoding_unambiguous (a b : Value) :
    (a.writes <+: b.writes ↔ a.Identical b) ∧
      ∀ i : Builtin.Invocation, Coexist i.address a b →
        (a.toBytes i.address <+: b.toBytes i.address ↔ a.Identical b) ∧
        (¬ a.Identical b → a.object? = none → b.object? = none →
          ((Builtin.id { i with args := [a] }).result = (Builtin.id { i with args := [b] }).result ↔
            Collision i.hasher (a.received i.address) (b.received i.address))) := by
  simp only [identical_iff]
  refine ⟨⟨eq_of_initial_writes, ?_⟩, fun i hexist => ⟨⟨hexist.eq_of_initial, ?_⟩, ?_⟩⟩
  · rintro rfl
    exact List.prefix_rfl
  · rintro rfl
    exact List.prefix_rfl
  · intro hne ha hb
    rw [id_eq_iff ha hb]
    constructor
    · intro hsame
      have hinitial : ¬ a.received i.address <+: b.received i.address :=
        fun h => hne (hexist.eq_of_received h)
      have hextension : ¬ b.received i.address <+: a.received i.address :=
        fun h => hne (hexist.symm.eq_of_received h).symm
      exact ⟨hinitial, hextension, hsame⟩
    · exact Collision.sameHash

/-- A list with two objects, one of them in a list of its own, that ends with
the given value. -/
def endingWith (last : Value) : Value := .list [.object 0, .list [.object 1], last]

/-- An integer that the hasher, at the end of such a list, confuses with nil. -/
def crafted : Value := .int 7130488378986467726

/-- A call with the objects sixteen bytes apart, and the hasher that is run. -/
def spacedCall : Builtin.Invocation :=
  { args := [], names := fun _ => "", now := 0, address := .spaced 16 16
    hasher := Hash.multiplicative }

/-- Collisions do occur. These two lists have different encodings, and the
hasher answers both with the same hash. -/
theorem crafted_collision :
    Coexist spacedCall.address (endingWith .nil) (endingWith crafted) ∧
      ¬ (endingWith .nil).Identical (endingWith crafted) ∧
      (Builtin.id { spacedCall with args := [endingWith .nil] }).result =
        (Builtin.id { spacedCall with args := [endingWith crafted] }).result ∧
      ¬ (endingWith .nil).writes <+: (endingWith crafted).writes ∧
      ¬ (endingWith .nil).toBytes spacedCall.address <+:
        (endingWith crafted).toBytes spacedCall.address ∧
      Collision spacedCall.hasher ((endingWith .nil).received spacedCall.address)
        ((endingWith crafted).received spacedCall.address) := by
  have hlengths : ∀ n, .count n ∈ (endingWith .nil).writes ++ (endingWith crafted).writes →
      n < UInt64.size := fun n hn => by
    simp [endingWith, crafted, writes, writesAll] at hn
    have hbound : 3 < UInt64.size := by decide
    omega
  have hobjects : ∀ o, .identity o ∈ (endingWith .nil).writes ++ (endingWith crafted).writes →
      o < 2 := fun o ho => by
    simp [endingWith, crafted, writes, writesAll] at ho
    rcases ho with rfl | rfl | rfl | rfl <;> decide
  have haddresses : ∀ o < 2, ∀ o' < 2, spacedCall.address o = spacedCall.address o' → o = o' := by
    decide
  have hexist : Coexist spacedCall.address (endingWith .nil) (endingWith crafted) :=
    ⟨hlengths, fun o o' ho ho' => haddresses o (hobjects o ho) o' (hobjects o' ho')⟩
  have hne : ¬ (endingWith .nil).Identical (endingWith crafted) := by
    simp [endingWith, crafted, Identical, IdenticalAll]
  have hid : (Builtin.id { spacedCall with args := [endingWith .nil] }).result =
      (Builtin.id { spacedCall with args := [endingWith crafted] }).result := by
    rw [id_eq_iff rfl rfl]
    decide +kernel
  obtain ⟨hwrites, hcoexist⟩ := encoding_unambiguous (endingWith .nil) (endingWith crafted)
  obtain ⟨hbytes, hcollision⟩ := hcoexist spacedCall hexist
  exact ⟨hexist, hne, hid, fun h => hne (hwrites.mp h), fun h => hne (hbytes.mp h),
    (hcollision hne rfl rfl).mp hid⟩

end Value

end AdaptiveScript
