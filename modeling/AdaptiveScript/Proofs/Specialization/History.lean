import AdaptiveScript.Proofs.Specialization.Dispatch
import Mathlib.Data.List.Induction

/-! # The Histories of a Site

  A site is used over and over with one table. Two things are said here of
  any number of dispatches at it.

  - Nothing stands in a site without a reason (`Site.justified_after`): the
    cursor is at a strategy that has had a result and that has excluded what
    it replaces, and a bit of the mask is that of a strategy which has retired
    or which a strategy at the cursor replaces.
  - What is excluded might as well not be there (`Site.excluded_is_absent`):
    any other strategy in its place leads to the same results, cursors and
    masks. The same holds of strategies without a bit in the mask.

  The first is an invariant: `Moved` says what one dispatch can do to a site,
  and `Justified` is kept by it. The second compares two tables; a dispatch
  sees of a table only what the open strategies say
  (`Site.dispatch_congr`), and an exclusion is never taken back.
-/

namespace AdaptiveScript

namespace Site

variable {α β : Type} {table table' : List (Strategy α β)} {args : α} {s s' : Site}

/-- Sites with the same cursor and the same exclusions are the same. -/
theorem eq_of_isExcluded (hcursor : s.cursor = s'.cursor)
    (hexcluded : ∀ j, s.isExcluded j = s'.isExcluded j) : s = s' := by
  have hmask : s.excluded = s'.excluded := by
    apply BitVec.eq_of_getLsbD_eq
    intro j _
    exact hexcluded j
  cases s
  cases s'
  simp_all

/-! ### What one dispatch does -/

/-- The strategy at an index is asked in a dispatch and says `attempt`. The
strategy at the cursor is asked first, and then the others in order for as
long as none has a result. -/
structure Asked (table : List (Strategy α β)) (args : α) (s : Site) (index : Nat)
    (attempt : Attempt β) : Prop where
  attempted : s.consult (table.take maxStrategies) args index = some attempt
  reached : s.cursor = some index ∨
    (∀ c r, s.cursor = some c → s.consult (table.take maxStrategies) args c ≠ some (.done r)) ∧
      ∀ j, j < index → ∀ r, s.consult (table.take maxStrategies) args j ≠ some (.done r)

/-- An index with a strategy that takes part has one in the whole table, and a
bit in the mask. -/
theorem entry_of_take {index : Nat} {strategy : Strategy α β}
    (h : (table.take maxStrategies)[index]? = some strategy) :
    index < maxStrategies ∧ table[index]? = some strategy := by
  have hlength := (List.getElem?_eq_some_iff.mp h).1
  rw [List.length_take] at hlength
  have hindex : index < maxStrategies := by omega
  rw [List.getElem?_take_of_lt hindex] at h
  exact ⟨hindex, h⟩

/-- A strategy that is asked is in the table, has a bit, and is not excluded. -/
theorem Asked.entry {index : Nat} {attempt : Attempt β} (h : Asked table args s index attempt) :
    ∃ strategy, index < maxStrategies ∧ table[index]? = some strategy ∧
      s.isExcluded index = false ∧ strategy.guard args = true ∧
      strategy.body args = attempt := by
  obtain ⟨strategy, hentry, hopen, hguard, hbody⟩ := consult_eq_some h.attempted
  obtain ⟨hindex, hwhole⟩ := entry_of_take hentry
  exact ⟨strategy, hindex, hwhole, hopen, hguard, hbody⟩

/-- What a dispatch can do to a site. -/
structure Moved (table : List (Strategy α β)) (args : α) (s s' : Site) : Prop where
  /-- No exclusion is taken back. -/
  keeps : ∀ j, s.isExcluded j = true → s'.isExcluded j = true
  /-- The cursor stays or goes to a strategy that has just had a result, and
  whose replacements are made. -/
  cursor : s'.cursor = s.cursor ∨
    ∃ c strategy r, s'.cursor = some c ∧ table[c]? = some strategy ∧
      Asked table args s c (.done r) ∧
      ∀ j, strategy.replaces.getLsbD j = true → s'.isExcluded j = true
  /-- Only what retires or is replaced is excluded. -/
  gains : ∀ j, s'.isExcluded j = true → s.isExcluded j = true ∨ Asked table args s j .retire ∨
    ∃ c strategy, s'.cursor = some c ∧ table[c]? = some strategy ∧
      strategy.replaces.getLsbD j = true

theorem Dispatched.moved {out : Option β × Site}
    (h : Dispatched (table.take maxStrategies) args s out) : Moved table args s out.2 := by
  cases h with
  | remembered _ _ => exact ⟨fun j hj => hj, .inl rfl, fun j hj => .inl hj⟩
  | @found index strategy result s' forgotten first entry cursor excluded =>
    have hentry := (entry_of_take entry).2
    have hfirst : ∀ j, j < index → ∀ r,
        s.consult (table.take maxStrategies) args j ≠ some (.done r) :=
      fun j hj => first.least j (Nat.zero_le j) hj
    refine ⟨fun j hj => (excluded j).mpr (.inl hj), .inr ?_, ?_⟩
    · have hasked : Asked table args s index (.done result) :=
        ⟨first.answers, .inr ⟨forgotten, hfirst⟩⟩
      exact ⟨index, strategy, result, cursor, hentry, hasked,
        fun j hj => (excluded j).mpr (.inr (.inr hj))⟩
    · intro j hj
      rcases (excluded j).mp hj with hold | ⟨hplace, hretire⟩ | hreplaced
      · exact .inl hold
      · -- it was asked at the cursor, or on the way to the one that answered
        have hreached : s.cursor = some j ∨
            (∀ c r, s.cursor = some c →
              s.consult (table.take maxStrategies) args c ≠ some (.done r)) ∧
              ∀ i, i < j → ∀ r, s.consult (table.take maxStrategies) args i ≠ some (.done r) := by
          rcases hplace with hbefore | hcursor
          · exact .inr ⟨forgotten, fun i hi => hfirst i (by omega)⟩
          · exact .inl hcursor
        exact .inr (.inl ⟨hretire, hreached⟩)
      · exact .inr (.inr ⟨index, strategy, cursor, hentry, hreplaced⟩)
  | missed silent cursor excluded =>
    refine ⟨fun j hj => (excluded j).mpr (.inl hj), .inl cursor, ?_⟩
    intro j hj
    rcases (excluded j).mp hj with hold | hretire
    · exact .inl hold
    · have hnone : ∀ i r, s.consult (table.take maxStrategies) args i ≠ some (.done r) :=
        fun i => silent i (Nat.zero_le i)
      exact .inr (.inl ⟨hretire, .inr ⟨fun c r _ => hnone c r, fun i _ => hnone i⟩⟩)

theorem moved_dispatch (hcursor : ∀ c, s.cursor = some c → c < 32) :
    Moved table args s (s.dispatch table args).2 :=
  (dispatch_dispatched table args s hcursor).moved

theorem Moved.cursor_lt (h : Moved table args s s') (hcursor : ∀ c, s.cursor = some c → c < 32) :
    ∀ c, s'.cursor = some c → c < 32 := by
  intro c hc
  rcases h.cursor with hsame | ⟨c', _, _, hc', _, hasked, _⟩
  · rw [hsame] at hc
    exact hcursor c hc
  · obtain ⟨_, hbound, _⟩ := hasked.entry
    rw [hc'] at hc
    cases hc
    exact hbound

/-! ### Any number of dispatches -/

/-- The site after dispatches on some operands, in order. -/
def after (table : List (Strategy α β)) (calls : List α) (s : Site) : Site :=
  calls.foldl (fun s args => (s.dispatch table args).2) s

@[simp] theorem after_nil : after table [] s = s := rfl

theorem after_append (earlier later : List α) :
    s.after table (earlier ++ later) = (s.after table earlier).after table later := by
  simp [after]

theorem after_snoc (calls : List α) (args : α) :
    s.after table (calls ++ [args]) = ((s.after table calls).dispatch table args).2 := by
  simp [after]

theorem cursor_lt_after (calls : List α) (hcursor : ∀ c, s.cursor = some c → c < 32) :
    ∀ c, (s.after table calls).cursor = some c → c < 32 := by
  induction calls using List.reverseRecOn with
  | nil => exact hcursor
  | append_singleton calls args ih =>
    rw [after_snoc]
    exact (moved_dispatch ih).cursor_lt ih

/-- A site that has been used further: exclusions are kept, and a cursor that is
set stays set. -/
structure Follows (s s' : Site) : Prop where
  excluded : ∀ j, s.isExcluded j = true → s'.isExcluded j = true
  cursor : s.cursor.isSome = true → s'.cursor.isSome = true

theorem follows_after (calls : List α) (hcursor : ∀ c, s.cursor = some c → c < 32) :
    Follows s (s.after table calls) := by
  induction calls using List.reverseRecOn with
  | nil => exact ⟨fun j hj => hj, fun h => h⟩
  | append_singleton calls args ih =>
    rw [after_snoc]
    have hmoved : Moved table args (s.after table calls)
        ((s.after table calls).dispatch table args).2 :=
      moved_dispatch (cursor_lt_after calls hcursor)
    refine ⟨fun j hj => hmoved.keeps j (ih.excluded j hj), fun h => ?_⟩
    rcases hmoved.cursor with hsame | ⟨c, _, _, hc, _⟩
    · rw [hsame]
      exact ih.cursor h
    · rw [hc]
      rfl

/-! ### The reasons for a state -/

/-- In one of the dispatches the strategy at an index was asked and said
`attempt`. -/
def Said (table : List (Strategy α β)) (calls : List α) (s : Site) (index : Nat)
    (attempt : Attempt β) : Prop :=
  ∃ earlier args later, calls = earlier ++ args :: later ∧
    Asked table args (s.after table earlier) index attempt

/-- Before or after one of the dispatches the cursor was at an index. -/
def WasCursor (table : List (Strategy α β)) (calls : List α) (s : Site) (index : Nat) : Prop :=
  ∃ earlier later, calls = earlier ++ later ∧ (s.after table earlier).cursor = some index

theorem Said.snoc {calls : List α} {index : Nat} {attempt : Attempt β}
    (h : Said table calls s index attempt) (args : α) :
    Said table (calls ++ [args]) s index attempt := by
  obtain ⟨earlier, args', later, hcalls, hasked⟩ := h
  exact ⟨earlier, args', later ++ [args], by simp [hcalls], hasked⟩

theorem Said.last {calls : List α} {index : Nat} {attempt : Attempt β}
    (h : Asked table args (s.after table calls) index attempt) :
    Said table (calls ++ [args]) s index attempt :=
  ⟨calls, args, [], rfl, h⟩

theorem WasCursor.snoc {calls : List α} {index : Nat} (h : WasCursor table calls s index)
    (args : α) : WasCursor table (calls ++ [args]) s index := by
  obtain ⟨earlier, later, hcalls, hcursor⟩ := h
  exact ⟨earlier, later ++ [args], by simp [hcalls], hcursor⟩

/-- Everything that a site remembers after some dispatches has a reason in
them. -/
structure Justified (table : List (Strategy α β)) (calls : List α) (s s' : Site) : Prop where
  /-- The cursor is the index of a strategy with a bit in the mask. -/
  bounded : ∀ c, s'.cursor = some c → c < maxStrategies ∧ c < table.length
  /-- The strategy at the cursor has had a result. -/
  answered : ∀ c, s'.cursor = some c → ∃ r, Said table calls s c (.done r)
  /-- What the strategy at the cursor replaces is excluded. -/
  replaced : ∀ c strategy, s'.cursor = some c → table[c]? = some strategy →
    ∀ j, strategy.replaces.getLsbD j = true → s'.isExcluded j = true
  /-- An excluded strategy has retired, or one that was at the cursor replaces
  it. -/
  excluded : ∀ j, s'.isExcluded j = true → Said table calls s j .retire ∨
    ∃ c strategy, WasCursor table calls s c ∧ table[c]? = some strategy ∧
      strategy.replaces.getLsbD j = true

theorem Justified.fresh : Justified table [] Site.fresh Site.fresh := by
  refine ⟨?_, ?_, ?_, ?_⟩
  · intro c hc
    cases hc
  · intro c hc
    cases hc
  · intro c strategy hc
    cases hc
  · intro j hj
    simp [isExcluded, Site.fresh] at hj

/-- The step lemma: one dispatch more brings reasons for all that it changes. -/
theorem Justified.step {calls : List α} (h : Justified table calls s (s.after table calls))
    (hmoved : Moved table args (s.after table calls) (s.after table (calls ++ [args]))) :
    Justified table (calls ++ [args]) s (s.after table (calls ++ [args])) := by
  refine ⟨?_, ?_, ?_, ?_⟩
  · intro c hc
    rcases hmoved.cursor with hsame | ⟨c', _, _, hc', _, hasked, _⟩
    · rw [hsame] at hc
      exact h.bounded c hc
    · obtain ⟨_, hbound, hentry, _⟩ := hasked.entry
      rw [hc'] at hc
      cases hc
      exact ⟨hbound, (List.getElem?_eq_some_iff.mp hentry).1⟩
  · intro c hc
    rcases hmoved.cursor with hsame | ⟨c', _, r, hc', _, hasked, _⟩
    · rw [hsame] at hc
      obtain ⟨r, hsaid⟩ := h.answered c hc
      exact ⟨r, hsaid.snoc args⟩
    · rw [hc'] at hc
      cases hc
      exact ⟨r, .last hasked⟩
  · intro c strategy hc hentry j hj
    rcases hmoved.cursor with hsame | ⟨c', strategy', _, hc', hentry', _, hmade⟩
    · rw [hsame] at hc
      exact hmoved.keeps j (h.replaced c strategy hc hentry j hj)
    · rw [hc'] at hc
      cases hc
      rw [hentry'] at hentry
      cases hentry
      exact hmade j hj
  · intro j hj
    rcases hmoved.gains j hj with hold | hretire | ⟨c, strategy, hc, hentry, hreplaces⟩
    · rcases h.excluded j hold with hsaid | ⟨c, strategy, hwas, hentry, hreplaces⟩
      · exact .inl (hsaid.snoc args)
      · exact .inr ⟨c, strategy, hwas.snoc args, hentry, hreplaces⟩
    · exact .inl (.last hretire)
    · exact .inr ⟨c, strategy, ⟨calls ++ [args], [], by simp, hc⟩, hentry, hreplaces⟩

theorem cursor_fresh : ∀ c, Site.fresh.cursor = some c → c < 32 := by
  intro c hc
  cases hc

/-- After any dispatches at a new site, `earlier` ones and then `later` ones,
the site follows from what it was in between, and everything in it has a reason
in its history. -/
theorem justified_after (table : List (Strategy α β)) (earlier later : List α) :
    Follows (Site.fresh.after table earlier) (Site.fresh.after table (earlier ++ later)) ∧
      Justified table (earlier ++ later) .fresh (Site.fresh.after table (earlier ++ later)) := by
  constructor
  · rw [after_append]
    exact follows_after later (cursor_lt_after earlier cursor_fresh)
  · induction earlier ++ later using List.reverseRecOn with
    | nil => exact .fresh
    | append_singleton calls args ih =>
      apply ih.step
      rw [after_snoc]
      exact moved_dispatch (cursor_lt_after calls cursor_fresh)

/-! ### Tables that cannot be told apart -/

/-- Two tables have the same strategies wherever the site is open. -/
def SameOpen (s : Site) (table table' : List (Strategy α β)) : Prop :=
  ∀ j, j < maxStrategies → s.isExcluded j = false → table'[j]? = table[j]?

/-- The open strategies of both tables say the same. -/
theorem SameOpen.consult_eq (h : SameOpen s table table') (j : Nat) :
    s.consult (table'.take maxStrategies) args j = s.consult (table.take maxStrategies) args j := by
  by_cases hj : j < maxStrategies
  · unfold consult
    rw [List.getElem?_take_of_lt hj, List.getElem?_take_of_lt hj]
    cases hexcluded : s.isExcluded j with
    | false => rw [h j hj hexcluded]
    | true => cases table'[j]? <;> cases table[j]? <;> simp
  · unfold consult
    have hnone : ∀ t : List (Strategy α β), (t.take maxStrategies)[j]? = none := by
      intro t
      apply List.getElem?_eq_none
      rw [List.length_take]
      omega
    rw [hnone, hnone]

/-- What a dispatch leaves behind is determined by the results of the strategies,
by which of them retire, and by what the first one with a result replaces. -/
theorem Dispatched.unique {out out' : Option β × Site} (h : Dispatched table args s out)
    (h' : Dispatched table' args s out')
    (hdone : ∀ j r, s.consult table' args j = some (.done r) ↔
      s.consult table args j = some (.done r))
    (hretire : ∀ j, s.consult table' args j = some .retire ↔ s.consult table args j = some .retire)
    (hentry : ∀ j r, s.consult table args j = some (.done r) → table'[j]? = table[j]?) :
    out = out' := by
  cases h with
  | remembered cursor answers =>
    cases h' with
    | remembered cursor' answers' =>
      rw [cursor] at cursor'
      cases cursor'
      rw [hdone, answers] at answers'
      cases answers'
      rfl
    | found forgotten =>
      exact absurd ((hdone _ _).mpr answers) (forgotten _ _ cursor)
    | missed silent =>
      exact absurd ((hdone _ _).mpr answers) (silent _ (Nat.zero_le _) _)
  | @found index strategy result s₁ forgotten first entry cursor excluded =>
    cases h' with
    | remembered cursor' answers' =>
      exact absurd ((hdone _ _).mp answers') (forgotten _ _ cursor')
    | @found index' strategy' result' s₂ _ first' entry' cursor' excluded' =>
      -- neither comes before the other, so the first of both is the same
      have hindex : index = index' := by
        rcases Nat.lt_trichotomy index index' with hlt | heq | hgt
        · exact absurd ((hdone _ _).mpr first.answers) (first'.least index (Nat.zero_le _) hlt _)
        · exact heq
        · exact absurd ((hdone _ _).mp first'.answers)
            (first.least index' (Nat.zero_le _) hgt _)
      subst hindex
      have hresult : result = result' := by
        have hboth := (hdone _ _).mp first'.answers
        rw [first.answers] at hboth
        cases hboth
        rfl
      have hstrategy : strategy = strategy' := by
        rw [hentry index result first.answers, entry] at entry'
        exact Option.some.inj entry'
      have hsite : s₁ = s₂ := by
        apply eq_of_isExcluded (cursor.trans cursor'.symm)
        intro j
        rw [Bool.eq_iff_iff, excluded j, excluded' j, hretire j, hstrategy]
      rw [hresult, hsite]
    | missed silent =>
      exact absurd ((hdone _ _).mpr first.answers) (silent _ (Nat.zero_le _) _)
  | @missed s₁ silent cursor excluded =>
    cases h' with
    | remembered cursor' answers' =>
      exact absurd ((hdone _ _).mp answers') (silent _ (Nat.zero_le _) _)
    | found _ first' =>
      exact absurd ((hdone _ _).mp first'.answers) (silent _ (Nat.zero_le _) _)
    | @missed s₂ _ cursor' excluded' =>
      have hsite : s₁ = s₂ := by
        apply eq_of_isExcluded (cursor.trans cursor'.symm)
        intro j
        rw [Bool.eq_iff_iff, excluded j, excluded' j, hretire j]
      rw [hsite]

/-- A dispatch cannot tell tables apart that have the same open strategies. -/
theorem dispatch_congr (hcursor : ∀ c, s.cursor = some c → c < 32)
    (h : SameOpen s table table') : s.dispatch table' args = s.dispatch table args := by
  symm
  apply (dispatch_dispatched table args s hcursor).unique
    (dispatch_dispatched table' args s hcursor)
  · intro j r
    rw [h.consult_eq]
  · intro j
    rw [h.consult_eq]
  · intro j r hanswer
    obtain ⟨_, _, hopen, _⟩ := consult_eq_some hanswer
    by_cases hj : j < maxStrategies
    · rw [List.getElem?_take_of_lt hj, List.getElem?_take_of_lt hj]
      exact h j hj hopen
    · rw [List.getElem?_take, List.getElem?_take, if_neg hj, if_neg hj]

/-- The results of dispatches on operands, in order, each with the site that it
leaves behind. -/
def outcomes (table : List (Strategy α β)) : List α → Site → List (Option β × Site)
  | [], _ => []
  | args :: calls, s => s.dispatch table args :: outcomes table calls (s.dispatch table args).2

/-- Nor can any number of dispatches, for what is open only becomes less. -/
theorem outcomes_congr (calls : List α) (hcursor : ∀ c, s.cursor = some c → c < 32)
    (h : SameOpen s table table') : outcomes table' calls s = outcomes table calls s := by
  induction calls generalizing s with
  | nil => rfl
  | cons args calls ih =>
    have hmoved : Moved table args s (s.dispatch table args).2 := moved_dispatch hcursor
    have hopen : SameOpen (s.dispatch table args).2 table table' := by
      intro j hj hexcluded
      apply h j hj
      by_contra hold
      have hkept := hmoved.keeps j (by simpa using hold)
      rw [hkept] at hexcluded
      cases hexcluded
    have hrest := ih (hmoved.cursor_lt hcursor) hopen
    rw [outcomes, outcomes, dispatch_congr hcursor h, hrest]

/-- An excluded strategy has left a site: it is asked no more, and the cursor
does not come to it. -/
structure Gone (table : List (Strategy α β)) (s s' : Site) (index : Nat) : Prop where
  excluded : s'.isExcluded index = true
  unasked : ∀ args attempt, ¬ Asked table args s' index attempt
  cursor : s'.cursor = some index → s.cursor = some index

theorem gone_after {index : Nat} (calls : List α) (hcursor : ∀ c, s.cursor = some c → c < 32)
    (hindex : s.isExcluded index = true) : Gone table s (s.after table calls) index := by
  have hunasked : ∀ {t : Site}, t.isExcluded index = true →
      ∀ args attempt, ¬ Asked table args t index attempt := by
    intro t ht args attempt hasked
    obtain ⟨_, _, _, hopen, _⟩ := hasked.entry
    rw [ht] at hopen
    cases hopen
  have hexcluded : (s.after table calls).isExcluded index = true :=
    (follows_after calls hcursor).excluded index hindex
  refine ⟨hexcluded, hunasked hexcluded, ?_⟩
  induction calls using List.reverseRecOn with
  | nil => exact fun h => h
  | append_singleton calls args ih =>
    intro h
    have hbefore : (s.after table calls).isExcluded index = true :=
      (follows_after calls hcursor).excluded index hindex
    rw [after_snoc] at h
    have hmoved : Moved table args (s.after table calls)
        ((s.after table calls).dispatch table args).2 :=
      moved_dispatch (cursor_lt_after calls hcursor)
    rcases hmoved.cursor with hsame | ⟨c, _, _, hc, _, hasked, _⟩
    · exact ih hbefore (hsame.symm.trans h)
    · -- only a strategy that was asked becomes the cursor
      rw [hc] at h
      cases h
      exact absurd hasked (hunasked hbefore args _)

/-- Exclusion is for good. From any state of a site on, strategies without a
bit have no part in its dispatches; and an excluded strategy has none either:
the results, cursors and masks are those with any other strategy in its place,
it is never asked again, and it does not become the cursor. -/
theorem excluded_is_absent (table : List (Strategy α β)) (s : Site)
    (hcursor : ∀ c, s.cursor = some c → c < 32) (calls : List α) :
    outcomes (table.take maxStrategies) calls s = outcomes table calls s ∧
      ∀ index, s.isExcluded index = true →
        (∀ strategy, outcomes (table.set index strategy) calls s = outcomes table calls s) ∧
          Gone table s (s.after table calls) index := by
  constructor
  · apply outcomes_congr calls hcursor
    intro j hj _
    exact List.getElem?_take_of_lt hj
  · intro index hindex
    refine ⟨fun strategy => ?_, gone_after calls hcursor hindex⟩
    apply outcomes_congr calls hcursor
    intro j _ hopen
    have hne : index ≠ j := by
      intro h
      rw [h, hopen] at hindex
      cases hindex
    exact List.getElem?_set_ne hne

/-- Doubles small numbers and retires at others. -/
def doubling : Strategy Nat Nat :=
  { name := "double", guard := fun _ => true
    body := fun n => if n < 100 then .done (2 * n) else .retire }

/-- Has a result for every number, and would replace all other strategies. -/
def greedy : Strategy Nat Nat :=
  { name := "greedy", guard := fun _ => true, body := .done, replaces := BitVec.allOnes 32 }

/-- Takes numbers from 10 on. -/
def capped : Strategy Nat Nat :=
  { name := "cap", guard := fun n => decide (10 ≤ n), body := fun _ => .done 10 }

/-- A site whose cursor is still at the strategy that has retired there. -/
def stale : Site := { cursor := some 0, excluded := Mask.bit 0 }

/-- The strategy at the stale cursor might as well be the greedy one: small
numbers have no result, and other numbers that of the second strategy. -/
theorem stale_is_absent :
    (∀ c, stale.cursor = some c → c < 32) ∧ stale.isExcluded 0 = true ∧
      stale = Site.fresh.after [doubling] [5, 200] ∧
      outcomes [greedy, capped] [5, 200] stale = outcomes [doubling, capped] [5, 200] stale ∧
      (outcomes [doubling, capped] [5, 200] stale).map (·.1) = [none, some 10] ∧
      Gone [doubling, capped] stale (stale.after [doubling, capped] [5, 200]) 0 := by
  have hcursor : ∀ c, stale.cursor = some c → c < 32 := by
    intro c hc
    cases hc
    decide
  have hexcluded : stale.isExcluded 0 = true := by decide
  have habsent := (excluded_is_absent [doubling, capped] stale hcursor [5, 200]).2 0 hexcluded
  exact ⟨hcursor, hexcluded, by decide, habsent.1 greedy, by decide, habsent.2⟩

end Site

end AdaptiveScript
