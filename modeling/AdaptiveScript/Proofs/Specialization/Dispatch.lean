import AdaptiveScript.Specialization

/-! # What a Dispatch Does

  A dispatch is a loop over a table that changes the mask it reads. Here it
  is described without the loop, by what each strategy would say if the site
  as it is now were asked (`Site.consult`):

  - the cursor's strategy answers, and nothing changes;
  - or the first strategy that answers becomes the cursor, and the mask
    gains the strategies before it that retire and those that it replaces;
  - or no strategy answers, and the mask gains all that retire.
-/

namespace AdaptiveScript

namespace Site

variable {α β : Type}

/-! ### Asking a single strategy -/

/-- What the strategy at an index says about some operands: nothing when
there is no such strategy, when it is excluded, or when its guard refuses. -/
def consult (table : List (Strategy α β)) (args : α) (s : Site) (index : Nat) :
    Option (Attempt β) :=
  match table[index]? with
  | none => none
  | some strategy =>
    if s.isExcluded index || !strategy.guard args then none else some (strategy.body args)

variable {table : List (Strategy α β)} {args : α} {s : Site}

theorem consult_of_some (args : α) (s : Site) {index : Nat} {strategy : Strategy α β}
    (h : table[index]? = some strategy) :
    s.consult table args index =
      if s.isExcluded index || !strategy.guard args then none
      else some (strategy.body args) := by
  unfold consult
  rw [h]

/-- A strategy that says something is in the table, is not excluded, and its
guard accepts the operands. -/
theorem consult_eq_some {index : Nat} {attempt : Attempt β}
    (h : s.consult table args index = some attempt) :
    ∃ strategy, table[index]? = some strategy ∧ s.isExcluded index = false ∧
      strategy.guard args = true ∧ strategy.body args = attempt := by
  unfold consult at h
  cases hs : table[index]? with
  | none => rw [hs] at h; cases h
  | some strategy =>
    rw [hs] at h
    simp only [Bool.or_eq_true, Bool.not_eq_true'] at h
    split at h
    · cases h
    · rename_i hopen
      rw [not_or, Bool.not_eq_true, Bool.not_eq_false] at hopen
      exact ⟨strategy, rfl, hopen.1, hopen.2, Option.some.inj h⟩

/-- Excluding a strategy silences it. -/
theorem consult_exclude_self {index : Nat} (hindex : index < 32) :
    (s.exclude index).consult table args index = none := by
  unfold consult
  cases table[index]? with
  | none => rfl
  | some strategy => simp [isExcluded_exclude, hindex]

/-- Excluding a strategy leaves what the others say alone. -/
theorem consult_exclude_ne {index j : Nat} (h : index ≠ j) :
    (s.exclude index).consult table args j = s.consult table args j := by
  unfold consult
  simp only [isExcluded_exclude, h, decide_false, Bool.and_false, Bool.or_false]

/-! ### The scan -/

/-- The strategy at `index` has a result, and no strategy from `start` on
before it has. -/
structure IsFirst (table : List (Strategy α β)) (args : α) (s : Site) (start index : Nat)
    (result : β) : Prop where
  start_le : start ≤ index
  answers : s.consult table args index = some (.done result)
  least : ∀ j, start ≤ j → j < index → ∀ r, s.consult table args j ≠ some (.done r)

/-- No strategy from `start` on has a result. -/
def Silent (table : List (Strategy α β)) (args : α) (s : Site) (start : Nat) : Prop :=
  ∀ j, start ≤ j → ∀ r, s.consult table args j ≠ some (.done r)

/-- What a scan from `start` on leaves behind: its result and the site. -/
inductive Scanned (table : List (Strategy α β)) (args : α) (s : Site) (start : Nat) :
    Option β × Site → Prop where
  /-- The first strategy with a result is activated; those before it that
  retire are excluded. -/
  | found {index : Nat} {strategy : Strategy α β} {result : β} {s' : Site}
      (first : IsFirst table args s start index result)
      (entry : table[index]? = some strategy)
      (cursor : s'.cursor = some index)
      (excluded : ∀ j, s'.isExcluded j = true ↔ s.isExcluded j = true ∨
        (start ≤ j ∧ j < index ∧ s.consult table args j = some .retire) ∨
        strategy.replaces.getLsbD j = true) :
      Scanned table args s start (some result, s')
  /-- Without a result, all strategies that retire are excluded. -/
  | missed {s' : Site}
      (silent : Silent table args s start)
      (cursor : s'.cursor = s.cursor)
      (excluded : ∀ j, s'.isExcluded j = true ↔ s.isExcluded j = true ∨
        (start ≤ j ∧ s.consult table args j = some .retire)) :
      Scanned table args s start (none, s')

/-- A strategy without a result and without a wish to retire can be left out
at the start of a scan. -/
theorem Scanned.skip {start : Nat} {out : Option β × Site}
    (hdone : ∀ r, s.consult table args start ≠ some (.done r))
    (hretire : s.consult table args start ≠ some .retire)
    (h : Scanned table args s (start + 1) out) : Scanned table args s start out := by
  -- the only index that the longer scan adds is `start`, and it adds nothing
  cases h with
  | found first entry cursor excluded =>
    refine .found ⟨?_, first.answers, ?_⟩ entry cursor ?_
    · exact Nat.le_of_succ_le first.start_le
    · intro j hj hlt
      rcases Nat.eq_or_lt_of_le hj with rfl | hj
      · exact hdone
      · exact first.least j hj hlt
    · intro j
      rw [excluded j]
      refine or_congr_right (or_congr_left ⟨?_, ?_⟩)
      · intro hcase
        obtain ⟨hj, hlt, hr⟩ := hcase
        exact ⟨Nat.le_of_succ_le hj, hlt, hr⟩
      · intro hcase
        obtain ⟨hj, hlt, hr⟩ := hcase
        rcases Nat.eq_or_lt_of_le hj with rfl | hj
        · exact absurd hr hretire
        · exact ⟨hj, hlt, hr⟩
  | missed silent cursor excluded =>
    refine .missed ?_ cursor ?_
    · intro j hj
      rcases Nat.eq_or_lt_of_le hj with rfl | hj
      · exact hdone
      · exact silent j hj
    · intro j
      rw [excluded j]
      refine or_congr_right ⟨?_, ?_⟩
      · intro hcase
        obtain ⟨hj, hr⟩ := hcase
        exact ⟨Nat.le_of_succ_le hj, hr⟩
      · intro hcase
        obtain ⟨hj, hr⟩ := hcase
        rcases Nat.eq_or_lt_of_le hj with rfl | hj
        · exact absurd hr hretire
        · exact ⟨hj, hr⟩

/-- A strategy that retires at the start of a scan is excluded, and the scan
goes on with the site without it. -/
theorem Scanned.retire {start : Nat} {out : Option β × Site} (hstart : start < 32)
    (hretire : s.consult table args start = some .retire)
    (h : Scanned table args (s.exclude start) (start + 1) out) :
    Scanned table args s start out := by
  -- the scan goes on with a smaller site, but asks no strategy that the
  -- exclusion of `start` could silence
  have hsame : ∀ j, start + 1 ≤ j →
      (s.exclude start).consult table args j = s.consult table args j := by
    intro j hj
    exact consult_exclude_ne (by omega)
  have hmask : ∀ j, (s.exclude start).isExcluded j = true ↔
      s.isExcluded j = true ∨ start = j := by
    intro j
    simp [isExcluded_exclude, hstart]
  cases h with
  | found first entry cursor excluded =>
    have hle := first.start_le
    refine .found ⟨by omega, ?_, ?_⟩ entry cursor ?_
    · rw [← hsame _ hle]
      exact first.answers
    · intro j hj hlt r
      rcases Nat.eq_or_lt_of_le hj with rfl | hj
      · rw [hretire]; simp
      · rw [← hsame j hj]
        exact first.least j hj hlt r
    · intro j
      rw [excluded j, hmask j]
      constructor
      · intro hcase
        rcases hcase with (h | rfl) | ⟨hj, hlt, hr⟩ | h
        · exact .inl h
        · exact .inr (.inl ⟨Nat.le_refl _, by omega, hretire⟩)
        · exact .inr (.inl ⟨by omega, hlt, hsame j hj ▸ hr⟩)
        · exact .inr (.inr h)
      · intro hcase
        rcases hcase with h | ⟨hj, hlt, hr⟩ | h
        · exact .inl (.inl h)
        · rcases Nat.eq_or_lt_of_le hj with rfl | hj
          · exact .inl (.inr rfl)
          · exact .inr (.inl ⟨hj, hlt, (hsame j hj).symm ▸ hr⟩)
        · exact .inr (.inr h)
  | missed silent cursor excluded =>
    refine .missed ?_ cursor ?_
    · intro j hj r
      rcases Nat.eq_or_lt_of_le hj with rfl | hj
      · rw [hretire]; simp
      · rw [← hsame j hj]
        exact silent j hj r
    · intro j
      rw [excluded j, hmask j]
      constructor
      · intro hcase
        rcases hcase with (h | rfl) | ⟨hj, hr⟩
        · exact .inl h
        · exact .inr ⟨Nat.le_refl _, hretire⟩
        · exact .inr ⟨by omega, hsame j hj ▸ hr⟩
      · intro hcase
        rcases hcase with h | ⟨hj, hr⟩
        · exact .inl (.inl h)
        · rcases Nat.eq_or_lt_of_le hj with rfl | hj
          · exact .inl (.inr rfl)
          · exact .inr ⟨hj, (hsame j hj).symm ▸ hr⟩

/-- The scan does what `Scanned` says, provided that the strategy of the
remembered cursor has no result. -/
theorem scan_scanned (cursor : Option Nat) (rest : List (Strategy α β)) (start : Nat) (s : Site)
    (hrest : table.drop start = rest) (hbound : table.length ≤ 32)
    (hcursor : ∀ c r, cursor = some c → s.consult table args c ≠ some (.done r)) :
    Scanned table args s start (scan cursor args rest start s) := by
  -- `rest` is what is left of the table from `start` on; the site changes on
  -- the way, so it is generalized too
  induction rest generalizing start s with
  | nil =>
    -- beyond the table nothing is said
    have hend : table.length ≤ start := List.drop_eq_nil_iff.mp hrest
    have hnone : ∀ j, start ≤ j → s.consult table args j = none := by
      intro j hj
      unfold consult
      rw [List.getElem?_eq_none (by omega)]
    refine .missed ?_ rfl ?_
    · intro j hj r
      rw [hnone j hj]; simp
    · intro j
      refine ⟨.inl, ?_⟩
      intro hcase
      rcases hcase with h | ⟨hj, hr⟩
      · exact h
      · rw [hnone j hj] at hr; cases hr
  | cons strategy rest ih =>
    have hentry : table[start]? = some strategy := by
      have := congrArg List.head? hrest
      rwa [List.head?_drop] at this
    have hlt : start < table.length := (List.getElem?_eq_some_iff.mp hentry).1
    have hdrop : table.drop (start + 1) = rest := by
      rw [← List.drop_drop, hrest, List.drop_one, List.tail_cons]
    have hsaid := consult_of_some args s hentry
    unfold scan
    split
    · -- excluded, or refused by its guard
      rename_i hclosed
      rw [if_pos hclosed] at hsaid
      exact (ih (start + 1) s hdrop hcursor).skip (by simp [hsaid]) (by simp [hsaid])
    · rename_i hopen
      rw [if_neg hopen] at hsaid
      cases hbody : strategy.body args with
      | done result =>
        rw [hbody] at hsaid
        -- the cursor's strategy has no result, so this one is another
        have hne : cursor ≠ some start := fun h => hcursor start result h hsaid
        simp only [hne, if_false]
        refine .found ⟨Nat.le_refl _, hsaid, fun j hj hlt => by omega⟩ hentry rfl ?_
        intro j
        rw [isExcluded_activate, Bool.or_eq_true]
        constructor
        · intro hcase
          rcases hcase with h | h
          · exact .inl h
          · exact .inr (.inr h)
        · intro hcase
          rcases hcase with h | ⟨_, _, _⟩ | h
          · exact .inl h
          · omega
          · exact .inr h
      | retire =>
        rw [hbody] at hsaid
        refine (ih (start + 1) (s.exclude start) hdrop ?_).retire (by omega) hsaid
        -- the smaller site says no more than the larger one
        intro c r hc
        by_cases h : start = c
        · rw [← h, consult_exclude_self (by omega)]; simp
        · rw [consult_exclude_ne h]
          exact hcursor c r hc
      | decline =>
        rw [hbody] at hsaid
        exact (ih (start + 1) s hdrop hcursor).skip (by simp [hsaid]) (by simp [hsaid])

/-! ### The dispatch -/

/-- What a dispatch leaves behind: its result and the site. -/
inductive Dispatched (table : List (Strategy α β)) (args : α) (s : Site) :
    Option β × Site → Prop where
  /-- The cursor's strategy has a result. -/
  | remembered {index : Nat} {result : β}
      (cursor : s.cursor = some index)
      (answers : s.consult table args index = some (.done result)) :
      Dispatched table args s (some result, s)
  /-- The first strategy with a result is activated; those before it that
  retire are excluded, and so is the cursor's if it retires. -/
  | found {index : Nat} {strategy : Strategy α β} {result : β} {s' : Site}
      (forgotten : ∀ c r, s.cursor = some c → s.consult table args c ≠ some (.done r))
      (first : IsFirst table args s 0 index result)
      (entry : table[index]? = some strategy)
      (cursor : s'.cursor = some index)
      (excluded : ∀ j, s'.isExcluded j = true ↔ s.isExcluded j = true ∨
        ((j < index ∨ s.cursor = some j) ∧ s.consult table args j = some .retire) ∨
        strategy.replaces.getLsbD j = true) :
      Dispatched table args s (some result, s')
  /-- Without a result, all strategies that retire are excluded. -/
  | missed {s' : Site}
      (silent : Silent table args s 0)
      (cursor : s'.cursor = s.cursor)
      (excluded : ∀ j, s'.isExcluded j = true ↔ s.isExcluded j = true ∨
        s.consult table args j = some .retire) :
      Dispatched table args s (none, s')

/-- A scan of the whole table is a dispatch when the cursor's strategy has
neither a result nor a wish to retire. -/
theorem Scanned.dispatched {out : Option β × Site}
    (hdone : ∀ c r, s.cursor = some c → s.consult table args c ≠ some (.done r))
    (hretire : ∀ c, s.cursor = some c → s.consult table args c ≠ some .retire)
    (h : Scanned table args s 0 out) : Dispatched table args s out := by
  cases h with
  | found first entry cursor excluded =>
    refine .found hdone first entry cursor ?_
    intro j
    rw [excluded j]
    refine or_congr_right (or_congr_left ⟨?_, ?_⟩)
    · intro hcase
      obtain ⟨_, hlt, hr⟩ := hcase
      exact ⟨.inl hlt, hr⟩
    · intro hcase
      rcases hcase with ⟨hlt | hc, hr⟩
      · exact ⟨Nat.zero_le _, hlt, hr⟩
      · exact absurd hr (hretire j hc)
  | missed silent cursor excluded =>
    refine .missed silent cursor ?_
    intro j
    rw [excluded j]
    simp only [Nat.zero_le, true_and]

/-- The same when the cursor's strategy has just retired. -/
theorem Scanned.dispatched_retired {out : Option β × Site} {c : Nat} (hc : s.cursor = some c)
    (hbound : c < 32) (hretire : s.consult table args c = some .retire)
    (h : Scanned table args (s.exclude c) 0 out) : Dispatched table args s out := by
  have hsilent : (s.exclude c).consult table args c = none := consult_exclude_self hbound
  have hmask : ∀ j, (s.exclude c).isExcluded j = true ↔ s.isExcluded j = true ∨ c = j := by
    intro j
    simp [isExcluded_exclude, hbound]
  -- a strategy that still says something is not the cursor's
  have hother : ∀ {j : Nat} {a : Attempt β}, (s.exclude c).consult table args j = some a →
      s.consult table args j = some a := by
    intro j a h
    by_cases hj : c = j
    · rw [← hj, hsilent] at h; cases h
    · rwa [consult_exclude_ne hj] at h
  have hkeep : ∀ {j : Nat} {a : Attempt β}, s.consult table args j = some a →
      c = j ∨ (s.exclude c).consult table args j = some a := by
    intro j a h
    by_cases hj : c = j
    · exact .inl hj
    · exact .inr (by rw [consult_exclude_ne hj, h])
  -- the cursor's strategy has no result, so all results are still there
  have hdone : ∀ {j : Nat} {r : β}, s.consult table args j = some (.done r) →
      (s.exclude c).consult table args j = some (.done r) := by
    intro j r h
    rcases hkeep h with rfl | h'
    · rw [hretire] at h; cases h
    · exact h'
  cases h with
  | @found index _ result _ first entry cursor excluded =>
    refine .found ?_ ⟨Nat.zero_le _, hother first.answers, ?_⟩ entry cursor ?_
    · intro c' r hc'
      rw [hc] at hc'
      cases hc'
      rw [hretire]; simp
    · intro j hj hlt r h
      exact first.least j hj hlt r (hdone h)
    · intro j
      rw [excluded j, hmask j]
      constructor
      · intro hcase
        rcases hcase with (h | rfl) | ⟨_, hlt, hr⟩ | h
        · exact .inl h
        · exact .inr (.inl ⟨.inr hc, hretire⟩)
        · exact .inr (.inl ⟨.inl hlt, hother hr⟩)
        · exact .inr (.inr h)
      · intro hcase
        rcases hcase with h | ⟨hlt | hcj, hr⟩ | h
        · exact .inl (.inl h)
        · rcases hkeep hr with rfl | hr'
          · exact .inl (.inr rfl)
          · exact .inr (.inl ⟨Nat.zero_le _, hlt, hr'⟩)
        · rw [hc] at hcj
          exact .inl (.inr (Option.some.inj hcj))
        · exact .inr (.inr h)
  | missed silent cursor excluded =>
    refine .missed ?_ cursor ?_
    · intro j hj r h
      exact silent j hj r (hdone h)
    · intro j
      rw [excluded j, hmask j]
      constructor
      · intro hcase
        rcases hcase with (h | rfl) | ⟨_, hr⟩
        · exact .inl h
        · exact .inr hretire
        · exact .inr (hother hr)
      · intro hcase
        rcases hcase with h | hr
        · exact .inl (.inl h)
        · rcases hkeep hr with rfl | hr'
          · exact .inl (.inr rfl)
          · exact .inr ⟨Nat.zero_le _, hr'⟩

/-- The fast path is the cursor's strategy being asked. -/
theorem tryCursor_eq {c : Nat} (hc : s.cursor = some c) :
    s.tryCursor table args =
      match s.consult table args c with
      | some (.done result) => (some result, s)
      | some .retire => (none, s.exclude c)
      | _ => (none, s) := by
  simp only [tryCursor, consult, hc]
  cases table[c]? with
  | none => rfl
  | some strategy =>
    by_cases hclosed : (s.isExcluded c || !strategy.guard args) = true
    · simp only [hclosed, if_true]
    · simp only [hclosed]
      cases strategy.body args <;> rfl

/-- Strategies with a bit in the mask are the same in the whole table. -/
theorem consult_take {c : Nat} (hc : c < 32) :
    s.consult (table.take maxStrategies) args c = s.consult table args c := by
  have hentry : (table.take maxStrategies)[c]? = table[c]? := List.getElem?_take_of_lt hc
  unfold consult
  rw [hentry]

/-- A dispatch over a table does what `Dispatched` says of the strategies
that have a bit in the mask. -/
theorem dispatch_dispatched (table : List (Strategy α β)) (args : α) (s : Site)
    (hcursor : ∀ c, s.cursor = some c → c < 32) :
    Dispatched (table.take maxStrategies) args s (s.dispatch table args) := by
  have hlength : (table.take maxStrategies).length ≤ 32 := List.length_take_le _ _
  unfold dispatch
  cases hc : s.cursor with
  | none =>
    -- nothing is remembered: the scan is all there is
    have hfast : s.tryCursor table args = (none, s) := by
      unfold tryCursor
      rw [hc]
    rw [hfast]
    exact (scan_scanned none _ 0 s rfl hlength (by simp)).dispatched (by simp [hc]) (by simp [hc])
  | some c =>
    have hbound := hcursor c hc
    rw [tryCursor_eq hc, ← consult_take hbound]
    -- without an answer and without retiring, the cursor is as good as unset
    have hidle : (∀ r, s.consult (table.take maxStrategies) args c ≠ some (.done r)) →
        s.consult (table.take maxStrategies) args c ≠ some .retire →
        Dispatched (table.take maxStrategies) args s
          (scan (some c) args (table.take maxStrategies) 0 s) := by
      intro hdone hretire
      refine (scan_scanned (some c) _ 0 s rfl hlength ?_).dispatched ?_ ?_
      · intro c' r h; cases h; exact hdone r
      · intro c' r h; rw [hc] at h; cases h; exact hdone r
      · intro c' h; rw [hc] at h; cases h; exact hretire
    cases hsaid : s.consult (table.take maxStrategies) args c with
    | none => exact hidle (by simp [hsaid]) (by simp [hsaid])
    | some attempt =>
      cases attempt with
      | done result => exact .remembered hc hsaid
      | retire =>
        refine (scan_scanned (some c) _ 0 (s.exclude c) rfl hlength ?_).dispatched_retired hc
          hbound hsaid
        intro c' r h
        cases h
        rw [consult_exclude_self hbound]; simp
      | decline => exact hidle (by simp [hsaid]) (by simp [hsaid])

/-! ### Where a result comes from -/

theorem exists_of_scan {cursor : Option Nat} {rest : List (Strategy α β)} {index : Nat} {result : β}
    (h : (scan cursor args rest index s).1 = some result) :
    ∃ strategy ∈ rest, strategy.guard args = true ∧ strategy.body args = .done result := by
  induction rest generalizing index s with
  | nil => cases h
  | cons strategy rest ih =>
    -- whichever way the scan goes on, a later strategy is one of the table
    have hrest : ∀ {index : Nat} {s : Site}, (scan cursor args rest index s).1 = some result →
        ∃ other ∈ strategy :: rest, other.guard args = true ∧ other.body args = .done result := by
      intro index s h
      obtain ⟨other, hmem, hother⟩ := ih h
      exact ⟨other, List.mem_cons_of_mem _ hmem, hother⟩
    unfold scan at h
    split at h
    case isTrue => exact hrest h
    case isFalse hopen =>
      have hguard : strategy.guard args = true := by simp_all
      split at h
      case h_1 r hbody =>
        cases h
        exact ⟨strategy, List.mem_cons_self, hguard, hbody⟩
      case h_2 => exact hrest h
      case h_3 => exact hrest h

/-- Whatever the state of the site, a result is that of a strategy of the
table whose guard accepts the operands. -/
theorem exists_of_dispatch {result : β} (h : (s.dispatch table args).1 = some result) :
    ∃ strategy ∈ table, strategy.guard args = true ∧ strategy.body args = .done result := by
  unfold dispatch at h
  split at h
  case h_1 r s' hcursor =>
    cases h
    cases hc : s.cursor with
    | none => simp [tryCursor, hc] at hcursor
    | some c =>
      rw [tryCursor_eq hc] at hcursor
      split at hcursor <;> cases hcursor
      obtain ⟨strategy, hentry, -, hguard, hbody⟩ := consult_eq_some ‹_›
      exact ⟨strategy, List.mem_of_getElem? hentry, hguard, hbody⟩
  case h_2 =>
    obtain ⟨strategy, hmem, hstrategy⟩ := exists_of_scan h
    exact ⟨strategy, List.mem_of_mem_take hmem, hstrategy⟩

end Site

end AdaptiveScript
