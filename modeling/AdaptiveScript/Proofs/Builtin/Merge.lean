import AdaptiveScript.Builtin.Registry
import Mathlib.Data.Finmap

/-! # Merging Sources of Builtins

  Sources are merged declaration by declaration, and a name that is taken
  ends the merge. The entries of a registry are therefore the declarations of
  its sources in order, under different names (`Registry.Merges`), and the
  only error is that of the first name which repeats an earlier one
  (`FirstRepeat`).

  A registry that is looked up often keeps an index by name beside the names
  in order. Both are filled in one pass over the sources, and the two must
  not drift apart: `Registry.Indexed.Agrees` says that such a registry answers
  every question as the plain list of entries does, and
  `Registry.Indexed.ofSources_agrees` that it does so after every merge,
  errors included.
-/

namespace AdaptiveScript

/-! ### The first repeated name -/

/-- The first name of a list that stands in it before. -/
def FirstRepeat (names : List String) (name : String) : Prop :=
  ∃ before after, names = before ++ name :: after ∧ before.Nodup ∧ name ∈ before

/-- Names that are not all different have a first repeated one. The names so
far are those that were found to be different. -/
theorem exists_repeat_after {seen names : List String} (hseen : seen.Nodup)
    (h : ¬ (seen ++ names).Nodup) : ∃ name, FirstRepeat (seen ++ names) name := by
  induction names generalizing seen with
  | nil =>
    rw [List.append_nil] at h
    exact absurd hseen h
  | cons name names ih =>
    by_cases hmem : name ∈ seen
    · exact ⟨name, seen, names, rfl, hseen, hmem⟩
    · rw [List.append_cons] at h ⊢
      exact ih (List.nodup_append.mpr ⟨hseen, List.nodup_singleton name, by grind⟩) h

theorem exists_firstRepeat {names : List String} (h : ¬ names.Nodup) :
    ∃ name, FirstRepeat names name :=
  exists_repeat_after List.nodup_nil h

namespace Registry

variable {r : Registry} {e : Builtin.Entry} {name : String}

/-! ### Lookup -/

theorem get?_eq_none_iff : r.get? name = none ↔ name ∉ r.names := by
  simp [get?, names]

theorem contains_iff : r.contains name = true ↔ name ∈ r.names := by
  rw [contains, Option.isSome_iff_ne_none, ne_eq, get?_eq_none_iff, not_not]

/-- Where names are different, every declaration is found under its name. -/
theorem get?_of_mem (hnodup : r.names.Nodup) (he : e ∈ r.entries) : r.get? e.name = some e := by
  cases hfound : r.get? e.name with
  | none => exact absurd (List.mem_map_of_mem he) (get?_eq_none_iff.mp hfound)
  | some d =>
    have hname : d.name = e.name := by simpa using List.find?_some hfound
    have hd : d ∈ r.entries := List.mem_of_find?_eq_some hfound
    rw [List.inj_on_of_nodup_map hnodup hd he hname]

/-- The three lookups of a declared name agree on its declaration. -/
theorem lookups_of_mem (hnodup : r.names.Nodup) (he : e ∈ r.entries) :
    r.resolve e.name = .ok e ∧ r.get? e.name = some e ∧ r.contains e.name = true := by
  have hget := get?_of_mem hnodup he
  refine ⟨?_, hget, ?_⟩
  · rw [resolve, hget]
  · rw [contains, hget, Option.isSome_some]

/-- The three lookups of another name agree that there is none. -/
theorem lookups_of_not_mem (h : name ∉ r.names) :
    r.resolve name = .error (.unresolvedBuiltin name) ∧ r.get? name = none ∧
      r.contains name = false := by
  have hget := get?_eq_none_iff.mpr h
  refine ⟨?_, hget, ?_⟩
  · rw [resolve, hget]
  · rw [contains, hget, Option.isSome_none]

/-! ### Adding declarations -/

/-- The registry after the declarations of a list. -/
def extend (r : Registry) (es : List Builtin.Entry) : Registry := ⟨r.entries ++ es⟩

@[simp] theorem names_extend (r : Registry) (es : List Builtin.Entry) :
    (r.extend es).names = r.names ++ es.map (·.name) := List.map_append

theorem insert_of_mem (h : e.name ∈ r.names) : r.insert e = .error (.duplicateBuiltin e.name) :=
  if_pos (contains_iff.mpr h)

theorem insert_of_not_mem (h : e.name ∉ r.names) : r.insert e = .ok (r.extend [e]) :=
  if_neg fun hin => h (contains_iff.mp hin)

/-- Declarations with new and different names are all added. -/
theorem insertAll_of_nodup {es : List Builtin.Entry} (h : (r.names ++ es.map (·.name)).Nodup) :
    r.insertAll es = .ok (r.extend es) := by
  induction es generalizing r with
  | nil => simp [insertAll, extend]
  | cons e es ih =>
    rw [List.map_cons, List.append_cons] at h
    have hnew : e.name ∉ r.names := by
      intro hmem
      have hfirst := List.Nodup.of_append_left h
      exact List.disjoint_of_nodup_append hfirst hmem (List.mem_singleton_self _)
    have hrest := ih (r := r.extend [e]) (by simpa using h)
    rw [insertAll, insert_of_not_mem hnew]
    simpa [bind, Except.bind, extend] using hrest

theorem insertAll_append (r : Registry) (es fs : List Builtin.Entry) :
    r.insertAll (es ++ fs) = (r.insertAll es).bind (·.insertAll fs) := by
  induction es generalizing r with
  | nil => rfl
  | cons e es ih =>
    rw [List.cons_append, insertAll, insertAll]
    cases r.insert e with
    | error err => rfl
    | ok r' => exact ih r'

/-- The first declaration whose name is taken ends the merge. -/
theorem insertAll_of_repeat {before after : List Builtin.Entry}
    (hbefore : (r.names ++ before.map (·.name)).Nodup)
    (he : e.name ∈ r.names ++ before.map (·.name)) :
    r.insertAll (before ++ e :: after) = .error (.duplicateBuiltin e.name) := by
  rw [← names_extend] at he
  rw [insertAll_append, insertAll_of_nodup hbefore, Except.bind, insertAll, insert_of_mem he]
  rfl

/-! ### Merging sources -/

/-- The names that sources declare, in order. -/
def declaredNames (sources : List (List Builtin.Entry)) : List String :=
  sources.flatMap fun source => source.map (·.name)

theorem declaredNames_eq (sources : List (List Builtin.Entry)) :
    declaredNames sources = sources.flatten.map (·.name) := by
  rw [declaredNames, List.flatMap, List.map_flatten]

theorem ofSources_of_nodup {sources : List (List Builtin.Entry)}
    (h : (declaredNames sources).Nodup) : ofSources sources = .ok ⟨sources.flatten⟩ := by
  rw [declaredNames_eq] at h
  exact insertAll_of_nodup h

theorem ofSources_of_repeat {sources : List (List Builtin.Entry)}
    (h : FirstRepeat (declaredNames sources) name) :
    ofSources sources = .error (.duplicateBuiltin name) := by
  rw [declaredNames_eq] at h
  obtain ⟨before, after, hsplit, hnodup, hmem⟩ := h
  -- the names are those of declarations, so these split in the same place
  obtain ⟨first, rest, hflat, rfl, hrest⟩ := List.map_eq_append_iff.mp hsplit
  obtain ⟨e, last, rfl, rfl, -⟩ := List.map_eq_cons_iff.mp hrest
  rw [ofSources, hflat]
  exact insertAll_of_repeat hnodup hmem

/-- Sources merge if their names are different, and into their declarations
in order. -/
theorem ofSources_eq_ok_iff {sources : List (List Builtin.Entry)} :
    ofSources sources = .ok r ↔ (declaredNames sources).Nodup ∧ r = ⟨sources.flatten⟩ := by
  constructor
  · intro h
    by_cases hnodup : (declaredNames sources).Nodup
    · rw [ofSources_of_nodup hnodup] at h
      exact ⟨hnodup, (Except.ok.inj h).symm⟩
    · obtain ⟨name, hrepeat⟩ := exists_firstRepeat hnodup
      rw [ofSources_of_repeat hrepeat] at h
      cases h
  · rintro ⟨hnodup, rfl⟩
    exact ofSources_of_nodup hnodup

/-- The only error of a merge is that of the first repeated name. -/
theorem ofSources_eq_error_iff {sources : List (List Builtin.Entry)} {err : LinkError} :
    ofSources sources = .error err ↔
      ∃ name, err = .duplicateBuiltin name ∧ FirstRepeat (declaredNames sources) name := by
  constructor
  · intro h
    have hrepeats : ¬ (declaredNames sources).Nodup := by
      intro hnodup
      rw [ofSources_of_nodup hnodup] at h
      cases h
    obtain ⟨name, hrepeat⟩ := exists_firstRepeat hrepeats
    rw [ofSources_of_repeat hrepeat] at h
    exact ⟨name, (Except.error.inj h).symm, hrepeat⟩
  · rintro ⟨name, rfl, hrepeat⟩
    exact ofSources_of_repeat hrepeat

/-- A registry is made of sources: it has their names in order and without
repetition, and looks up every name as they declare it. -/
structure Merges (sources : List (List Builtin.Entry)) (r : Registry) : Prop where
  names : r.names = declaredNames sources
  nodup : r.names.Nodup
  size : r.size = r.names.length
  declared : ∀ source ∈ sources, ∀ e ∈ source,
    r.resolve e.name = .ok e ∧ r.get? e.name = some e ∧ r.contains e.name = true
  undeclared : ∀ name ∉ r.names,
    r.resolve name = .error (.unresolvedBuiltin name) ∧ r.get? name = none ∧
      r.contains name = false

theorem merges_of_ofSources {sources : List (List Builtin.Entry)}
    (h : ofSources sources = .ok r) : r.Merges sources := by
  obtain ⟨hnodup, rfl⟩ := ofSources_eq_ok_iff.mp h
  rw [declaredNames_eq] at hnodup
  exact {
    names := (declaredNames_eq sources).symm
    nodup := hnodup
    size := (List.length_map _).symm
    declared := fun source hsource e he =>
      lookups_of_mem hnodup (List.mem_flatten_of_mem hsource he)
    undeclared := fun name hname => lookups_of_not_mem hname }

/-! ### An index beside the names -/

/-- A registry with an index by name, and the names in order. -/
structure Indexed where
  index : Finmap fun _ : String => Builtin.Entry
  order : List String

namespace Indexed

variable {t : Indexed}

/-- Adds a declaration to the index and its name to the others, unless the
index has it. -/
def insert (t : Indexed) (e : Builtin.Entry) : Except LinkError Indexed :=
  if e.name ∈ t.index then .error (.duplicateBuiltin e.name)
  else .ok ⟨t.index.insert e.name e, t.order ++ [e.name]⟩

/-- Adds the declarations of a source. -/
def addSource (t : Indexed) : List Builtin.Entry → Except LinkError Indexed
  | [] => .ok t
  | e :: es => do (← t.insert e).addSource es

/-- Adds the declarations of one source after the other. -/
def addSources (t : Indexed) : List (List Builtin.Entry) → Except LinkError Indexed
  | [] => .ok t
  | source :: sources => do (← t.addSource source).addSources sources

/-- Merges sources of declarations in order. -/
def ofSources (sources : List (List Builtin.Entry)) : Except LinkError Indexed :=
  addSources ⟨∅, []⟩ sources

/-- An indexed registry answers every question as the entries do. -/
structure Agrees (t : Indexed) (r : Registry) : Prop where
  lookup : ∀ name, t.index.lookup name = r.get? name
  order : t.order = r.names
  size : t.index.keys.card = r.size

/-- Two merges end with the same error, or with registries that agree. -/
inductive SameOutcome : Except LinkError Indexed → Except LinkError Registry → Prop where
  | error (err : LinkError) : SameOutcome (.error err) (.error err)
  | ok {t : Indexed} {r : Registry} (agrees : t.Agrees r) : SameOutcome (.ok t) (.ok r)

theorem SameOutcome.bind {x : Except LinkError Indexed} {y : Except LinkError Registry}
    {k : Indexed → Except LinkError Indexed} {l : Registry → Except LinkError Registry}
    (h : SameOutcome x y) (hk : ∀ t r, t.Agrees r → SameOutcome (k t) (l r)) :
    SameOutcome (x >>= k) (y >>= l) := by
  cases h with
  | error err => exact .error err
  | ok agrees => exact hk _ _ agrees

theorem agrees_empty : Agrees ⟨∅, []⟩ Registry.empty :=
  ⟨fun _ => rfl, rfl, rfl⟩

theorem Agrees.mem_index_iff (h : t.Agrees r) : name ∈ t.index ↔ name ∈ r.names := by
  rw [← Finmap.lookup_isSome, h.lookup, ← contains_iff, contains]

/-- The lookup of a registry with one declaration more. -/
theorem get?_extend_singleton (hnew : e.name ∉ r.names) :
    (r.extend [e]).get? name = if name = e.name then some e else r.get? name := by
  by_cases hname : name = e.name
  · subst hname
    have hnone := get?_eq_none_iff.mpr hnew
    simp only [get?] at hnone
    simp [get?, extend, hnone]
  · have hne : (e.name == name) = false := beq_false_of_ne (Ne.symm hname)
    simp [get?, extend, hne, hname]

/-- One declaration is added to both structures or to neither. -/
theorem Agrees.insert (h : t.Agrees r) (e : Builtin.Entry) :
    SameOutcome (t.insert e) (r.insert e) := by
  by_cases hmem : e.name ∈ r.names
  · rw [Registry.insert_of_mem hmem, Indexed.insert, if_pos (h.mem_index_iff.mpr hmem)]
    exact .error _
  · have hnew : e.name ∉ t.index := fun hin => hmem (h.mem_index_iff.mp hin)
    rw [Registry.insert_of_not_mem hmem, Indexed.insert, if_neg hnew]
    refine .ok ⟨fun name => ?_, ?_, ?_⟩
    · rw [get?_extend_singleton hmem]
      by_cases hname : name = e.name
      · rw [if_pos hname, hname, Finmap.lookup_insert]
      · rw [if_neg hname, Finmap.lookup_insert_of_ne _ hname, h.lookup]
    · simp [h.order]
    · have hkeys : (t.index.insert e.name e).keys = Insert.insert e.name t.index.keys := by
        ext name
        simp only [Finmap.mem_keys, Finmap.mem_insert, Finset.mem_insert]
      rw [hkeys, Finset.card_insert_of_notMem (mt Finmap.mem_keys.mp hnew), h.size]
      simp [Registry.size, extend]

theorem Agrees.addSource (h : t.Agrees r) (es : List Builtin.Entry) :
    SameOutcome (t.addSource es) (r.insertAll es) := by
  induction es generalizing t r with
  | nil => exact .ok h
  | cons e es ih =>
    rw [Indexed.addSource, insertAll]
    exact (h.insert e).bind fun t r h => ih h

theorem Agrees.addSources (h : t.Agrees r) (sources : List (List Builtin.Entry)) :
    SameOutcome (t.addSources sources) (r.insertAll sources.flatten) := by
  induction sources generalizing t r with
  | nil => exact .ok h
  | cons source sources ih =>
    rw [Indexed.addSources, List.flatten_cons, insertAll_append]
    exact (h.addSource source).bind fun t r h => ih h

/-- The index and the names of a merge are those of its entries. -/
theorem ofSources_agrees (sources : List (List Builtin.Entry)) :
    SameOutcome (ofSources sources) (Registry.ofSources sources) :=
  agrees_empty.addSources sources

end Indexed

/-- Sources merge exactly if the names that they declare, within and across
sources, are different; otherwise the error is that of the first name in order
of declaration which repeats an earlier one. The registry has the names of the
sources in order, each of them once, and every lookup of a name finds the
declaration of that name or reports that there is none. The same holds of a
registry that keeps an index beside the names. -/
theorem ofSources_merges (sources : List (List Builtin.Entry)) :
    ((∃ r, ofSources sources = .ok r) ↔ (declaredNames sources).Nodup) ∧
    (∀ err, ofSources sources = .error err ↔
      ∃ name, err = .duplicateBuiltin name ∧ FirstRepeat (declaredNames sources) name) ∧
    (∀ r, ofSources sources = .ok r → r.Merges sources) ∧
    Indexed.SameOutcome (Indexed.ofSources sources) (ofSources sources) := by
  refine ⟨⟨?_, ?_⟩, ?_, ?_, ?_⟩
  · rintro ⟨r, hr⟩
    exact (ofSources_eq_ok_iff.mp hr).1
  · intro hnodup
    exact ⟨_, ofSources_of_nodup hnodup⟩
  · intro err
    exact ofSources_eq_error_iff
  · intro r hr
    exact merges_of_ofSources hr
  · exact Indexed.ofSources_agrees sources

/-- A source may not declare a core builtin again. -/
example : ofSources [Builtin.core,
      [{ name := "answer", variadic := false, arity := 0, run := Builtin.time },
        { name := "print", variadic := true, arity := 0, run := Builtin.print },
        { name := "answer", variadic := false, arity := 0, run := Builtin.time }]] =
    .error (.duplicateBuiltin "print") := rfl

end Registry

end AdaptiveScript
