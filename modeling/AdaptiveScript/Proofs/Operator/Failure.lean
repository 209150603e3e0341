import AdaptiveScript.Builtin.Registry
import AdaptiveScript.Proofs.Operator.Rule
import Mathlib.Data.List.Basic

/-! # The Errors of Operators and Builtins

  An operator or a core builtin that fails names a cause and nothing else:
  no raised value, no call path, no traceback. The cause is always one of
  the operands, their number, type or size. Raising a value and exceeding
  the depth limit are left to the machine.
-/

namespace AdaptiveScript

/-- An error that is nothing but a cause, which lies in the operands. -/
structure EvalError.Plain (e : EvalError) : Prop where
  bare : e = { kind := e.kind }
  category : e.kind.category = .argument ∨ e.kind.category = .bounds

/-- A plain error is not that of the depth limit. -/
theorem EvalError.Plain.ne_stackOverflow {e : EvalError} (h : e.Plain) (depth : Nat) :
    e.kind ≠ .stackOverflow depth := by
  intro hkind
  have hcategory := h.category
  rw [hkind] at hcategory
  rcases hcategory with hargument | hbounds
  · cases hargument
  · cases hbounds

namespace Operator

theorem onInts_ne_error {op : Operator} {a b : Int64} {e : EvalError} :
    op.onInts a b ≠ .done (.error e) := by
  intro h
  unfold onInts at h
  split at h
  · cases h
  · split at h <;> cases h

theorem onNumbers_ne_error {f : Float → Float → Float} {o : Operands} {e : EvalError} :
    onNumbers f o ≠ .done (.error e) := by
  intro h
  unfold onNumbers at h
  split at h <;> cases h

theorem repetition_plain {unit : Nat} {count : Int64} {measure : String} {copies : Nat → Value}
    {e : EvalError} (h : repetition unit count measure copies = .error e) : e.Plain := by
  unfold repetition at h
  dsimp only at h
  split at h
  · cases h
    exact ⟨rfl, .inl rfl⟩
  · split at h <;> cases h
    exact ⟨rfl, .inr rfl⟩

theorem onOthers_plain {op : Operator} {names : ClassNames} {left right : Value} {e : EvalError}
    (h : op.onOthers names left right = .error e) : e.Plain := by
  unfold onOthers at h
  split at h
  · split at h <;> cases h
    exact ⟨rfl, .inl rfl⟩
  · exact repetition_plain h
  · exact repetition_plain h
  · cases h
    exact ⟨rfl, .inl rfl⟩

/-- The errors of an operator are plain. -/
theorem evaluate_plain {op : Operator} {names : ClassNames} {left right : Value} {site : Site}
    {e : EvalError} (h : (op.evaluate names left right site).1 = .error e) : e.Plain := by
  unfold evaluate at h
  split at h
  case h_1 result site' hdispatch =>
    obtain ⟨strategy, hmem, hguard, hbody⟩ := Site.exists_of_dispatch (congrArg Prod.fst hdispatch)
    obtain ⟨index, hentry⟩ := List.getElem?_of_mem hmem
    replace hbody := hbody.trans (congrArg Attempt.done h)
    -- only the strategies for operands that are not both numbers can fail
    cases form_of_entry hentry with
    | ints _ guard body _ =>
      rw [guard] at hguard
      obtain ⟨a, b, hleft, hright⟩ := Operands.isInts_iff.mp hguard
      rw [hleft, hright, body] at hbody
      exact absurd hbody onInts_ne_error
    | mixed _ _ body _ =>
      rw [body] at hbody
      exact absurd hbody onNumbers_ne_error
    | general _ _ body _ =>
      rw [body] at hbody
      exact absurd hbody onNumbers_ne_error
    | others _ body _ =>
      rw [(body names left right hguard).2] at hbody
      exact onOthers_plain (Attempt.done.inj hbody)
  case h_2 =>
    cases h
    exact ⟨rfl, .inl rfl⟩

end Operator

namespace Builtin

theorem abs_ne_error {i : Invocation} {e : EvalError} : (abs i).result ≠ .error e := by
  intro h
  unfold abs at h
  split at h
  case h_1 result site hdispatch =>
    obtain ⟨strategy, hmem, -, hbody⟩ := Site.exists_of_dispatch (congrArg Prod.fst hdispatch)
    replace hbody := hbody.trans (congrArg Attempt.done h)
    rcases List.mem_pair.mp hmem with hs | hs <;> subst hs
    · simp only [absInt] at hbody
      split at hbody
      · split at hbody <;> cases hbody
      · cases hbody
    · simp only [absFloat] at hbody
      split at hbody <;> cases hbody
  case h_2 => cases h

theorem intArgument_plain {name : String} {i : Invocation} {e : EvalError}
    (h : intArgument name i = .error e) : e.Plain := by
  unfold intArgument at h
  split at h <;> cases h
  exact ⟨rfl, .inl rfl⟩

theorem map_plain {x : Except EvalError Int64} {f : Int64 → Value} {e : EvalError}
    (hx : ∀ {e}, x = .error e → e.Plain) (h : x.map f = .error e) : e.Plain := by
  cases x with
  | ok n => cases h
  | error e' =>
    cases h
    exact hx rfl

theorem chr_plain {i : Invocation} {e : EvalError} (h : (chr i).result = .error e) :
    e.Plain := by
  unfold chr at h
  cases hcode : intArgument "chr" i with
  | error e' =>
    simp only [hcode] at h
    cases h
    exact intArgument_plain hcode
  | ok code =>
    simp only [hcode, bind, Except.bind] at h
    split at h <;> cases h
    exact ⟨rfl, .inl rfl⟩

/-- The errors of the core builtins are plain. -/
theorem core_plain {entry : Entry} (hentry : entry ∈ core) {i : Invocation} {e : EvalError}
    (h : (entry.invoke i).result = .error e) : e.Plain := by
  unfold Entry.invoke at h
  split at h
  case isTrue =>
    replace h : (entry.run i).result = .error e := h
    simp only [core, List.mem_cons, List.not_mem_nil, or_false] at hentry
    rcases hentry with hrun | hrun | hrun | hrun | hrun | hrun | hrun | hrun <;> subst hrun
    -- `time`, `print` and `microtime` never fail
    · cases h
    · cases h
    · cases h
    · exact absurd h abs_ne_error
    · exact map_plain intArgument_plain h
    · exact chr_plain h
    · exact map_plain intArgument_plain h
    · simp only [id] at h
      split at h <;> cases h
  case isFalse =>
    cases h
    exact ⟨rfl, .inl rfl⟩

end Builtin

end AdaptiveScript
