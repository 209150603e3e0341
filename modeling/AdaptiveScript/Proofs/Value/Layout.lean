import AdaptiveScript.Value.Hash
import Mathlib

/-! # Layouts of the Encoding

  The encoding of a value is a list of writes, and whoever receives it puts
  the writes one after the other in a form of its own: as they are, or as the
  bytes that they stand for. Nothing marks where a write ends, and a list has
  no closing mark, so whether a value can be read off depends on the form.

  A layout is faithful if each kind of write, followed by anything, can be told
  from every other write of its kind (`Layout.Faithful`). That is enough for
  whole values. Where the layouts of two values begin alike, the values are the
  same, and so is what follows (`Layout.Faithful.tells_writes`). The tag says
  what comes next, and the length of a list says how many items do.

  All of Mathlib is imported for what it has on the bits of floats
  (`Float.toBits_inj`), which no smaller import reaches.
-/

namespace AdaptiveScript

/-- The content of a value: all that it writes after its tag. -/
def Value.content (v : Value) : List Write := v.writes.tail

theorem Value.writes_eq (v : Value) : v.writes = [.word v.tag] ++ v.content := by
  unfold content writes
  rfl

/-- The form in which each write is laid out. -/
abbrev Layout (β : Type) := Write → List β

namespace Layout

variable {β : Type} {lay : Layout β}

/-! ### Telling lists of writes apart -/

/-- Where two lists of writes, whatever follows them, are laid out alike, `same`
holds and the same follows. -/
def Tells (lay : Layout β) (xs ys : List Write) (same : Prop) : Prop :=
  ∀ u v : List β, xs.flatMap lay ++ u = ys.flatMap lay ++ v → same ∧ u = v

theorem Tells.mono {xs ys : List Write} {same same' : Prop} (h : Tells lay xs ys same)
    (himp : same → same') : Tells lay xs ys same' :=
  fun u v halike => (h u v halike).imp_left himp

theorem Tells.nil : Tells lay [] [] True :=
  fun _ _ halike => ⟨trivial, halike⟩

/-- What has been told of the first writes may be used to tell the next. -/
theorem Tells.append {xs ys xs' ys' : List Write} {same same' : Prop}
    (h : Tells lay xs ys same) (h' : same → Tells lay xs' ys' same') :
    Tells lay (xs ++ xs') (ys ++ ys') (same ∧ same') := by
  intro u v halike
  rw [List.flatMap_append, List.flatMap_append, List.append_assoc, List.append_assoc] at halike
  obtain ⟨hsame, hrest⟩ := h _ _ halike
  obtain ⟨hsame', huv⟩ := h' hsame u v hrest
  exact ⟨⟨hsame, hsame'⟩, huv⟩

/-- What is told holds already where one layout begins with the other. -/
theorem Tells.of_initial {xs ys : List Write} {same : Prop} (h : Tells lay xs ys same)
    (hinitial : xs.flatMap lay <+: ys.flatMap lay) : same := by
  obtain ⟨rest, hrest⟩ := hinitial
  have halike : xs.flatMap lay ++ rest = ys.flatMap lay ++ [] := by rw [hrest, List.append_nil]
  exact (h rest [] halike).1

/-! ### Faithful layouts -/

/-- A layout that tells the writes of each kind apart. Of lengths and
identities it need tell apart only those that are admitted. -/
structure Faithful (lay : Layout β) (admitted : Write → Prop) : Prop where
  word : ∀ w w' : UInt64, Tells lay [.word w] [.word w'] (w = w')
  bool : ∀ b b' : Bool, Tells lay (Value.boolWrites b) (Value.boolWrites b') (b = b')
  text : ∀ s s' : String, Tells lay (Value.textWrites s) (Value.textWrites s') (s = s')
  count : ∀ n n' : Nat, admitted (.count n) → admitted (.count n') →
    Tells lay [.count n] [.count n'] (n = n')
  identity : ∀ o o' : ObjectId, admitted (.identity o) → admitted (.identity o') →
    Tells lay [.identity o] [.identity o'] (o = o')

namespace Faithful

variable {admitted : Write → Prop}

/-- Two values are told apart by their tags, or else by their contents. -/
theorem tells_tagged (faithful : Faithful lay admitted) {a b : Value} {same : Prop}
    (h : a.tag = b.tag → Tells lay a.content b.content same) :
    Tells lay a.writes b.writes same := by
  rw [a.writes_eq, b.writes_eq]
  exact ((faithful.word a.tag b.tag).append h).mono And.right

mutual

/-- A faithful layout tells values apart. -/
theorem tells_writes (faithful : Faithful lay admitted) :
    ∀ {a b : Value}, (∀ w ∈ a.writes, admitted w) → (∀ w ∈ b.writes, admitted w) →
      Tells lay a.writes b.writes (a = b)
  | .nil, b, _, _ => by
    refine faithful.tells_tagged fun htag => ?_
    cases b with
    | nil => exact Tells.nil.mono fun _ => rfl
    | _ => cases htag
  | .bool x, b, _, _ => by
    refine faithful.tells_tagged fun htag => ?_
    cases b with
    | bool y => exact (faithful.bool x y).mono (congrArg Value.bool)
    | _ => cases htag
  | .int n, b, _, _ => by
    refine faithful.tells_tagged fun htag => ?_
    cases b with
    | int m =>
      refine (faithful.word n.toUInt64 m.toUInt64).mono fun hword => ?_
      have hbits : n.toBitVec = m.toBitVec := congrArg UInt64.toBitVec hword
      exact congrArg Value.int (Int64.toBitVec_inj.mp hbits)
    | _ => cases htag
  | .float x, b, _, _ => by
    refine faithful.tells_tagged fun htag => ?_
    cases b with
    | float y =>
      refine (faithful.word x.toBits y.toBits).mono fun hbits => ?_
      exact congrArg Value.float (Float.toBits_inj.mp hbits)
    | _ => cases htag
  | .str s, b, _, _ => by
    refine faithful.tells_tagged fun htag => ?_
    cases b with
    | str t => exact (faithful.text s t).mono (congrArg Value.str)
    | _ => cases htag
  | .list items, b, ha, hb => by
    refine faithful.tells_tagged fun htag => ?_
    cases b with
    | list others =>
      have hlengths := faithful.count items.length others.length
        (ha _ (by simp [Value.writes])) (hb _ (by simp [Value.writes]))
      -- the lengths agree, so both lists of items end at the same place
      refine (hlengths.append fun hlength => faithful.tells_writesAll hlength ?_ ?_).mono ?_
      · exact fun w hw => ha w (by simp [Value.writes, hw])
      · exact fun w hw => hb w (by simp [Value.writes, hw])
      · exact fun hsame => congrArg Value.list hsame.2
    | _ => cases htag
  | .object o, b, ha, hb => by
    refine faithful.tells_tagged fun htag => ?_
    cases b with
    | object o' =>
      refine (faithful.identity o o' ?_ ?_).mono (congrArg Value.object)
      · exact ha _ (by simp [Value.writes])
      · exact hb _ (by simp [Value.writes])
    | _ => cases htag
  | .callable name builtin, b, _, _ => by
    refine faithful.tells_tagged fun htag => ?_
    cases b with
    | callable name' builtin' =>
      refine ((faithful.text name name').append fun _ => faithful.bool builtin builtin').mono ?_
      exact fun hsame => congrArg₂ Value.callable hsame.1 hsame.2
    | _ => cases htag

/-- A faithful layout tells lists of the same length apart. -/
theorem tells_writesAll (faithful : Faithful lay admitted) :
    ∀ {as bs : List Value}, as.length = bs.length →
      (∀ w ∈ Value.writesAll as, admitted w) → (∀ w ∈ Value.writesAll bs, admitted w) →
      Tells lay (Value.writesAll as) (Value.writesAll bs) (as = bs)
  | [], [], _, _, _ => Tells.nil.mono fun _ => rfl
  | [], _ :: _, hlength, _, _ => by cases hlength
  | _ :: _, [], hlength, _, _ => by cases hlength
  | a :: as, b :: bs, hlength, has, hbs => by
    rw [Value.writesAll] at has hbs
    have hfirst : Tells lay a.writes b.writes (a = b) :=
      faithful.tells_writes (fun w hw => has w (List.mem_append_left _ hw))
        fun w hw => hbs w (List.mem_append_left _ hw)
    have hrest : Tells lay (Value.writesAll as) (Value.writesAll bs) (as = bs) :=
      faithful.tells_writesAll (Nat.succ.inj hlength)
        (fun w hw => has w (List.mem_append_right _ hw))
        fun w hw => hbs w (List.mem_append_right _ hw)
    rw [Value.writesAll, Value.writesAll]
    exact (hfirst.append fun _ => hrest).mono fun hsame => congrArg₂ List.cons hsame.1 hsame.2

end

end Faithful

end Layout

end AdaptiveScript
