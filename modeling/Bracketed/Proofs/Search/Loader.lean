import Bracketed.Proofs.Search.Layers

namespace Bracketed

open Setting

/-- The settings that can be set one by one. -/
inductive SearchKey where
  | associativity
  | caseSensitive
  | conjunction
  | disjunction
  | negation
  deriving DecidableEq

namespace SearchKey

def text : SearchKey → String
  | associativity => "associativity"
  | caseSensitive => "case_sensitive"
  | conjunction => "operators.and"
  | disjunction => "operators.or"
  | negation => "operators.not"

def path : SearchKey → KeyPath
  | associativity => ⟨"associativity", []⟩
  | caseSensitive => ⟨"case_sensitive", []⟩
  | conjunction => ⟨"operators", [.name "and"]⟩
  | disjunction => ⟨"operators", [.name "or"]⟩
  | negation => ⟨"operators", [.name "not"]⟩

theorem read?_text (key : SearchKey) : KeyPath.read? key.text = some key.path := by
  cases key <;> decide +kernel

theorem isFieldPath (key : SearchKey) : IsFieldPath "operators" key.path := by
  cases key with
  | associativity | caseSensitive => exact .top (by decide)
  | conjunction | disjunction | negation => exact .entry _

end SearchKey

/-- The path of the groupings, which cannot be set one by one. -/
def groupingsPath : KeyPath := ⟨"groupings", []⟩

theorem SearchKey.path_ne_groupingsPath (key : SearchKey) : key.path ≠ groupingsPath := by
  cases key <;> decide

/-- A call that adds a layer or sets a single key. -/
inductive LoaderCall where
  | layer (source : SettingsLayer)
  | override (key : SearchKey) (value : Setting)

namespace LoaderCall

def apply (l : SearchLoader) : LoaderCall → Except SettingsError SearchLoader
  | layer source => .ok (l.withLayer source)
  | override key value => l.setOverride key.text value

def layer? : LoaderCall → Option SettingsLayer
  | layer source => some source
  | override _ _ => none

def override? : LoaderCall → Option (KeyPath × Setting)
  | layer _ => none
  | override key value => some (key.path, value)

end LoaderCall

/-- All calls, one after the other, on a loader that has been given nothing yet. -/
def SearchLoader.load (calls : List LoaderCall) : Except SettingsError SearchLoader :=
  calls.foldlM LoaderCall.apply {}

/-- Layers have plain names, and single keys are set to values without parts. -/
def LoaderCall.IsAdmissible : LoaderCall → Prop
  | layer source => source.HasPlainNames
  | override _ value => value.IsScalar

instance : DecidablePred LoaderCall.IsAdmissible
  | .layer source => inferInstanceAs (Decidable source.HasPlainNames)
  | .override _ value => inferInstanceAs (Decidable value.IsScalar)

namespace SearchLoader

theorem lookup_reverse_cons_or (path path' : KeyPath) (value : Setting) (overrides : List (KeyPath × Setting))
    (rest : Option Setting) :
    (((path', value) :: overrides).reverse.lookup path).or rest =
      (overrides.reverse.lookup path).or (if path = path' then some value else rest) := by
  rw [List.reverse_cons, List.lookup_append, Option.or_assoc, List.lookup_cons, List.lookup_nil]
  by_cases heq : path = path'
  · rw [heq, beq_self_eq_true, if_pos rfl, Option.some_or]
  · rw [beq_eq_false_iff_ne.mpr heq, if_neg heq, Option.none_or]

/-- Single keys are set above everything else, the last value of each key first. -/
theorem at?_foldl_set {path : KeyPath} (hpath : IsFieldPath "operators" path) {overrides : List (KeyPath × Setting)}
    (hoverrides : ∀ p ∈ overrides, IsFieldPath "operators" p.1 ∧ p.2.IsScalar) (settings : List (String × Setting)) :
    at? (overrides.foldl (fun settings (path, value) => Setting.set settings path value) settings) path =
      (overrides.reverse.lookup path).or (at? settings path) := by
  induction overrides generalizing settings with
  | nil => rfl
  | cons p overrides ih =>
    obtain ⟨path', value⟩ := p
    obtain ⟨⟨hp, hscalar⟩, hoverrides⟩ := List.forall_mem_cons.mp hoverrides
    rw [List.foldl_cons, ih hoverrides, at?_set hpath hp hscalar, lookup_reverse_cons_or]

theorem lookup_filter_ne {path path' : KeyPath} (hne : path ≠ path') (overrides : List (KeyPath × Setting)) :
    (overrides.filter (·.1 ≠ path')).lookup path = overrides.lookup path := by
  induction overrides with
  | nil => rfl
  | cons p overrides ih =>
    rw [List.filter_cons]
    split
    · rw [List.lookup_cons, List.lookup_cons, ih]
    · rename_i hp
      have heq : p.1 = path' := by simpa using hp
      rw [ih, List.lookup_cons, heq, beq_eq_false_iff_ne.mpr hne]

/-- Setting a key once more takes away what it has been set to so far. -/
def setLast (overrides : List (KeyPath × Setting)) (path : KeyPath) (value : Setting) : List (KeyPath × Setting) :=
  overrides.filter (·.1 ≠ path) ++ [(path, value)]

theorem lookup_reverse_setLast (overrides : List (KeyPath × Setting)) (path path' : KeyPath) (value : Setting) :
    (setLast overrides path' value).reverse.lookup path =
      if path = path' then some value else overrides.reverse.lookup path := by
  rw [setLast, List.reverse_append, List.reverse_singleton, List.singleton_append, List.lookup_cons]
  by_cases heq : path = path'
  · rw [heq, beq_self_eq_true, if_pos rfl]
  · rw [beq_eq_false_iff_ne.mpr heq, if_neg heq, ← List.filter_reverse, lookup_filter_ne heq]

theorem lookup_reverse_foldl_setLast (path : KeyPath) (sets overrides : List (KeyPath × Setting)) :
    (sets.foldl (fun overrides (path, value) => setLast overrides path value) overrides).reverse.lookup path =
      (sets.reverse.lookup path).or (overrides.reverse.lookup path) := by
  induction sets generalizing overrides with
  | nil => rfl
  | cons p sets ih =>
    obtain ⟨path', value⟩ := p
    rw [List.foldl_cons, ih, lookup_reverse_setLast, lookup_reverse_cons_or]

theorem mem_foldl_setLast {p : KeyPath × Setting} {sets overrides : List (KeyPath × Setting)}
    (h : p ∈ sets.foldl (fun overrides (path, value) => setLast overrides path value) overrides) :
    p ∈ sets ∨ p ∈ overrides := by
  induction sets generalizing overrides with
  | nil => exact .inr h
  | cons q sets ih =>
    rcases ih h with hmem | hmem
    · exact .inl (List.mem_cons_of_mem q hmem)
    · rcases List.mem_append.mp hmem with hmem | hmem
      · exact .inr (List.mem_of_mem_filter hmem)
      · rw [List.mem_singleton.mp hmem]
        exact .inl List.mem_cons_self

theorem setOverride_text (l : SearchLoader) (key : SearchKey) (value : Setting) :
    l.setOverride key.text value = .ok { l with overrides := setLast l.overrides key.path value } := by
  rw [setOverride, key.read?_text]
  rfl

/-- Calls never fail. The layers are those of the calls in their order, and so are the single keys. -/
theorem foldlM_apply (calls : List LoaderCall) (l : SearchLoader) :
    calls.foldlM LoaderCall.apply l = .ok {
      layers := l.layers ++ calls.filterMap LoaderCall.layer?
      overrides := (calls.filterMap LoaderCall.override?).foldl
        (fun overrides (path, value) => setLast overrides path value) l.overrides } := by
  induction calls generalizing l with
  | nil => simp [Pure.pure, Except.pure]
  | cons call calls ih =>
    rw [List.foldlM_cons]
    cases call with
    | layer source =>
      rw [LoaderCall.apply]
      change calls.foldlM LoaderCall.apply (l.withLayer source) = _
      rw [ih]
      simp [withLayer, List.filterMap_cons, LoaderCall.layer?, LoaderCall.override?]
    | override key value =>
      rw [LoaderCall.apply, setOverride_text]
      change calls.foldlM LoaderCall.apply _ = _
      rw [ih]
      simp [List.filterMap_cons, LoaderCall.layer?, LoaderCall.override?]

end SearchLoader

/-- The value that the last layer gives at a path of those that give one. -/
def lastGiven? (calls : List LoaderCall) (path : KeyPath) : Option Setting :=
  (calls.filterMap LoaderCall.layer?).reverse.findSome? (·.given? path)

/-- The last value that a key is set to. -/
def lastSet? (calls : List LoaderCall) (key : SearchKey) : Option Setting :=
  (calls.filterMap LoaderCall.override?).reverse.lookup key.path

/-- A setting is what the value for it is read as, or the initial one if there is no value. -/
def IsReadFrom {α : Type} (read : Setting → Except SettingsError α) (initial : α) (value : Option Setting) (a : α) :
    Prop :=
  match value with
  | some value => read value = .ok a
  | none => a = initial

/-- Every setting has the last value of its key, or else that of the last layer that gives one, or else that by
default. The groupings have no key, and those of a layer replace all others. -/
structure FollowsCalls (calls : List LoaderCall) (s : SearchSettings) : Prop where
  associativity : IsReadFrom SearchSettings.readAssociativity SearchSettings.default.associativity
    ((lastSet? calls .associativity).or (lastGiven? calls SearchKey.associativity.path)) s.associativity
  caseSensitive : IsReadFrom readBool SearchSettings.default.caseSensitive
    ((lastSet? calls .caseSensitive).or (lastGiven? calls SearchKey.caseSensitive.path)) s.caseSensitive
  conjunction : IsReadFrom readText SearchSettings.default.operators.conjunction
    ((lastSet? calls .conjunction).or (lastGiven? calls SearchKey.conjunction.path)) s.operators.conjunction
  disjunction : IsReadFrom readText SearchSettings.default.operators.disjunction
    ((lastSet? calls .disjunction).or (lastGiven? calls SearchKey.disjunction.path)) s.operators.disjunction
  negation : IsReadFrom readText SearchSettings.default.operators.negation
    ((lastSet? calls .negation).or (lastGiven? calls SearchKey.negation.path)) s.operators.negation
  groupings : IsReadFrom (readList SearchSettings.readGrouping) SearchSettings.default.groupings
    (lastGiven? calls groupingsPath) s.groupings

namespace SearchSettings

theorem ofTable_eq_ok {entries : List (String × Setting)} {s : SearchSettings} (h : ofTable entries = .ok s) :
    (∃ value, entries.lookup "associativity" = some value ∧ readAssociativity value = .ok s.associativity) ∧
      (∃ value, entries.lookup "case_sensitive" = some value ∧ readBool value = .ok s.caseSensitive) ∧
      (∃ value, entries.lookup "operators" = some value ∧ readOperators value = .ok s.operators) ∧
      ∃ value, entries.lookup "groupings" = some value ∧ readList readGrouping value = .ok s.groupings := by
  simp only [ofTable, SettingsError.bind_eq_ok_iff, demand_eq_ok_iff] at h
  obtain ⟨_, hassociativity, _, hcaseSensitive, _, hoperators, _, hgroupings, _, rfl, _, rfl, _, rfl, _, rfl, hs⟩ := h
  cases hs
  rw [part?_named_eq_ok_some_iff] at hassociativity hcaseSensitive hoperators hgroupings
  exact ⟨hassociativity, hcaseSensitive, hoperators, hgroupings⟩

theorem readOperators_table_eq_ok {entries : List (String × Setting)} {o : SearchOperators}
    (h : readOperators (.table entries) = .ok o) :
    (∃ value, entries.lookup "and" = some value ∧ readText value = .ok o.conjunction) ∧
      (∃ value, entries.lookup "or" = some value ∧ readText value = .ok o.disjunction) ∧
      ∃ value, entries.lookup "not" = some value ∧ readText value = .ok o.negation := by
  rw [readOperators, readRecord] at h
  simp only [SettingsError.bind_eq_ok_iff, demand_eq_ok_iff] at h
  obtain ⟨_, hrecord, _, hconjunction, _, hdisjunction, _, hnegation, _, rfl, _, rfl, _, rfl, ho⟩ := h
  cases hrecord
  cases ho
  rw [part?_named_eq_ok_some_iff] at hconjunction hdisjunction hnegation
  exact ⟨hconjunction, hdisjunction, hnegation⟩

end SearchSettings

namespace SearchLoader

section

variable {calls : List LoaderCall} (hcalls : ∀ call ∈ calls, call.IsAdmissible) {l : SearchLoader}
  (hload : load calls = .ok l) {settings : List (String × Setting)} (htable : l.table = .ok settings)
include hcalls hload htable

/-- Every field has a value in the table of all settings, which is read as that of its key, of a layer, or by
default. -/
theorem exists_at?_table {α : Type} {read : Setting → Except SettingsError α} {path : KeyPath}
    (hpath : IsFieldPath "operators" path)
    (hcounts : ∀ layer, IsPlainLayer "operators" layer →
      ∀ value, Setting.given? layer path = some value → CountsAsGiven read value)
    {initial : α}
    (hinitial : ∃ value, at? SearchSettings.default.toTable path = some value ∧ read value = .ok initial) :
    ∃ value, at? settings path = some value ∧ ∀ a, read value = .ok a →
      IsReadFrom read initial
        (((calls.filterMap LoaderCall.override?).reverse.lookup path).or (lastGiven? calls path)) a := by
  obtain ⟨first, hfirst, hreadFirst⟩ := hinitial
  have hsources : ∀ source ∈ calls.filterMap LoaderCall.layer?, source.HasPlainNames := by
    intro source hsource
    obtain ⟨call, hcall, hlayer⟩ := List.mem_filterMap.mp hsource
    cases call with
    | layer => cases hlayer; exact hcalls _ hcall
    | override => cases hlayer
  have hoverrides : ∀ p ∈ calls.filterMap LoaderCall.override?, IsFieldPath "operators" p.1 ∧ p.2.IsScalar := by
    intro p hp
    obtain ⟨call, hcall, hoverride⟩ := List.mem_filterMap.mp hp
    cases call with
    | layer => cases hoverride
    | override key => cases hoverride; exact ⟨key.isFieldPath, hcalls _ hcall⟩
  rw [load, foldlM_apply] at hload
  cases hload
  obtain ⟨layered, hlayered, hset⟩ := SettingsError.bind_eq_ok_iff.mp htable
  cases hset
  obtain ⟨next, hnext, hreadNext⟩ := exists_at?_foldlM_applyLayer hpath hcounts hsources hfirst hlayered
  rw [at?_foldl_set hpath fun p hp => hoverrides p ((mem_foldl_setLast hp).resolve_right List.not_mem_nil),
    lookup_reverse_foldl_setLast, hnext]
  -- What a key has been set to hides the layers, whatever they have left behind.
  cases (calls.filterMap LoaderCall.override?).reverse.lookup path with
  | some value => exact ⟨value, rfl, fun a ha => ha⟩
  | none =>
    refine ⟨next, rfl, fun a ha => ?_⟩
    have hlast : read ((lastGiven? calls path).getD first) = .ok a := hreadNext a ha
    rw [Option.none_or]
    cases hgiven : lastGiven? calls path with
    | some value => rwa [hgiven] at hlast
    | none =>
      rw [hgiven, Option.getD_none, hreadFirst] at hlast
      cases hlast
      rfl

theorem isReadFrom_of_at?_table {α : Type} (read : Setting → Except SettingsError α) {path : KeyPath}
    (hpath : IsFieldPath "operators" path)
    (hcounts : ∀ layer, IsPlainLayer "operators" layer →
      ∀ value, Setting.given? layer path = some value → CountsAsGiven read value)
    {initial : α}
    (hinitial : ∃ value, at? SearchSettings.default.toTable path = some value ∧ read value = .ok initial)
    {a : α} (h : ∃ value, at? settings path = some value ∧ read value = .ok a) :
    IsReadFrom read initial
      (((calls.filterMap LoaderCall.override?).reverse.lookup path).or (lastGiven? calls path)) a := by
  obtain ⟨value, hvalue, hread⟩ := h
  obtain ⟨found, hfound, hfrom⟩ := exists_at?_table hcalls hload htable hpath hcounts hinitial
  rw [hvalue] at hfound
  cases hfound
  exact hfrom a hread

/-- The operators are a table whatever the layers and the keys say. -/
theorem exists_lookup_operators : ∃ entries, settings.lookup "operators" = some (.table entries) := by
  obtain ⟨value, hvalue, _⟩ := exists_at?_table hcalls hload htable SearchKey.conjunction.isFieldPath
    (fun _ _ _ hgiven => countsAsGiven_readText (given?_ne_empty hgiven)) ⟨_, rfl, rfl⟩
  change (settings.lookup "operators").bind (·.entries.lookup "and") = some value at hvalue
  obtain ⟨operators, hoperators, hlookup⟩ := Option.bind_eq_some_iff.mp hvalue
  cases operators with
  | table entries => exact ⟨entries, hoperators⟩
  | nil | bool | int | float | text | array => cases hlookup

theorem followsCalls_of_table {s : SearchSettings} (h : SearchSettings.ofTable settings = .ok s) :
    FollowsCalls calls s := by
  obtain ⟨hassociativity, hcaseSensitive, ⟨operators, hoperators, hreadOperators⟩, hgroupings⟩ :=
    SearchSettings.ofTable_eq_ok h
  obtain ⟨entries, hentries⟩ := exists_lookup_operators hcalls hload htable
  rw [hentries] at hoperators
  cases hoperators
  obtain ⟨hconjunction, hdisjunction, hnegation⟩ := SearchSettings.readOperators_table_eq_ok hreadOperators
  have hoperator : ∀ {name initial a},
      at? SearchSettings.default.toTable ⟨"operators", [.name name]⟩ = some (.text initial) →
      (∃ value, entries.lookup name = some value ∧ readText value = .ok a) →
      IsReadFrom readText initial (((calls.filterMap LoaderCall.override?).reverse.lookup
        ⟨"operators", [.name name]⟩).or (lastGiven? calls ⟨"operators", [.name name]⟩)) a := by
    intro name initial a hinitial hread
    refine isReadFrom_of_at?_table hcalls hload htable readText (.entry name)
      (fun _ _ _ hgiven => countsAsGiven_readText (given?_ne_empty hgiven)) ⟨_, hinitial, rfl⟩ ?_
    change ∃ value, (settings.lookup "operators").bind (·.entries.lookup name) = some value ∧ _
    rwa [hentries]
  exact {
    associativity := by
      refine isReadFrom_of_at?_table hcalls hload htable SearchSettings.readAssociativity
        SearchKey.associativity.isFieldPath (fun layer hlayer value hgiven => ?_) ⟨_, rfl, rfl⟩ hassociativity
      have hplain := hlayer.inner _ (mem_of_lookup (at?_of_given? hgiven))
      exact countsAsGiven_readVariant hplain (given?_ne_empty hgiven)
    caseSensitive :=
      isReadFrom_of_at?_table hcalls hload htable readBool SearchKey.caseSensitive.isFieldPath
        (fun _ _ _ hgiven => countsAsGiven_readBool (given?_ne_empty hgiven)) ⟨_, rfl, rfl⟩ hcaseSensitive
    conjunction := hoperator rfl hconjunction
    disjunction := hoperator rfl hdisjunction
    negation := hoperator rfl hnegation
    groupings := by
      have hpath : IsFieldPath "operators" groupingsPath := .top (by decide)
      have hfrom := isReadFrom_of_at?_table hcalls hload htable (readList SearchSettings.readGrouping) hpath
        (fun _ _ _ hgiven => countsAsGiven_readList (given?_ne_empty hgiven)) ⟨_, rfl, rfl⟩ hgroupings
      have hnone : (calls.filterMap LoaderCall.override?).reverse.lookup groupingsPath = none := by
        refine List.lookup_eq_none_iff.mpr fun p hp => ?_
        obtain ⟨call, _, hoverride⟩ := List.mem_filterMap.mp (List.mem_reverse.mp hp)
        cases call with
        | layer => cases hoverride
        | override key =>
          cases hoverride
          exact bne_iff_ne.mpr key.path_ne_groupingsPath.symm
      rwa [hnone, Option.none_or] at hfrom }

end

/-- The settings of a loader follow the calls that have been made on it. An empty table gives nothing, since tables are
merged entry by entry. Whether calls that set single keys come before, between or after those that add layers does not
matter. -/
theorem build_followsCalls (calls : List LoaderCall) (hcalls : ∀ call ∈ calls, call.IsAdmissible) :
    ∃ l, load calls = .ok l ∧ (∀ s, l.build = .ok s → FollowsCalls calls s) ∧
      ∀ calls', calls'.filterMap LoaderCall.layer? = calls.filterMap LoaderCall.layer? →
        calls'.filterMap LoaderCall.override? = calls.filterMap LoaderCall.override? → load calls' = .ok l := by
  refine ⟨_, foldlM_apply calls {}, fun s hs => ?_, fun calls' hlayers hoverrides => ?_⟩
  · obtain ⟨settings, htable, hread⟩ := SettingsError.bind_eq_ok_iff.mp hs
    exact followsCalls_of_table hcalls (foldlM_apply calls {}) htable hread
  · rw [load, foldlM_apply, hlayers, hoverrides]

/-- Two layers with a missing file between them, and single keys set before, between and after them. -/
def mixedCalls : List LoaderCall := [
  .override .conjunction (.text "AND"),
  .layer (.toml "associativity = \"right\"\noperators.and = \"et\""),
  .override .caseSensitive (.bool true),
  .layer (.file "search.toml" none false),
  .layer (.toml "operators.or = true\ngroupings = [[\"[\", \"]\"]]"),
  .override .caseSensitive (.bool false)]

/-- What the calls lead to. -/
def mixedSettings : SearchSettings where
  associativity := .right
  caseSensitive := false
  operators := { conjunction := "AND", disjunction := "true", negation := "!" }
  groupings := [{ opening := "[", closing := "]" }]

theorem build_followsCalls_mixed :
    (∀ call ∈ mixedCalls, call.IsAdmissible) ∧
      ∃ l, load mixedCalls = .ok l ∧ l.build = .ok mixedSettings ∧ FollowsCalls mixedCalls mixedSettings ∧
        load (mixedCalls.filter (·.override?.isSome) ++ mixedCalls.filter (·.layer?.isSome)) = .ok l := by
  have hadmissible : ∀ call ∈ mixedCalls, call.IsAdmissible := by decide +kernel
  have hbuild : (load mixedCalls >>= build) = .ok mixedSettings := by decide +kernel
  obtain ⟨l, hload, hfollows, hmoved⟩ := build_followsCalls mixedCalls hadmissible
  rw [hload] at hbuild
  exact ⟨hadmissible, l, hload, hbuild, hfollows mixedSettings hbuild, hmoved _ rfl rfl⟩

end SearchLoader

end Bracketed
