import Vancine.ModelPricing.Updates

/-!
# Runs of price updates

An update that has locked every option commits on what it has read. The rows that are missing when it reads are locked
only by its own inserts: an insert that finds the row of another update leaves the update with a stale copy.
-/

namespace Vancine.ModelPricing

open Lib Std

variable {ν : Type} {lib : PricingLibrary ν}

/-! ## Changes -/

section Changes

variable {values values' : PricingMaps} {change : ModelPricingChange ν} {changes : List (ModelPricingChange ν)}

theorem validPluginKey_of_modelPricingValues {name plugin : String} {value : PricingValue}
    (h : (modelPricingValues values name).variants[plugin]? = some value) : validPluginKey plugin = true := by
  have hget := (get_modelVariants (values .pluginBillingExpr) name plugin).symm.trans h
  split at hget
  · next hvalid => exact hvalid.1
  · cases hget

/-- A draft that passes has a name, and its plugins are declared or were there before. -/
theorem writable_of_validate {name : String} {draft : PricingValues}
    (h : validateModelPricing lib name draft (modelPricingValues values name) = true) : Writable name draft := by
  unfold validateModelPricing at h
  simp only [Bool.and_eq_true, decide_eq_true_eq] at h
  obtain ⟨⟨⟨hname, hvariants⟩, -⟩, -⟩ := h
  refine ⟨by simpa using hname, fun plugin value hvalue => ?_⟩
  have hvalid := List.all_eq_true.mp hvariants _ (Dict.mem_toList.mpr hvalue)
  cases value with
  | text expression =>
    rw [validVariant, Bool.and_eq_true] at hvalid
    have hcond := hvalid.2
    split at hcond
    · next hdeclares => exact lib.declares_valid plugin name hdeclares
    · exact validPluginKey_of_modelPricingValues (of_decide_eq_true hcond)
  | number x => exact absurd hvalid Bool.false_ne_true
  | other encoded => exact absurd hvalid Bool.false_ne_true

/-- The changes found their versions, their drafts are what is stored, and the other models keep their prices. -/
structure Applied (lib : PricingLibrary ν) (values values' : PricingMaps) (changes : List (ModelPricingChange ν)) :
    Prop where
  version : ∀ change ∈ changes,
    change.expectedVersion = some (lib.modelPricingVersion (modelPricingValues values change.modelName))
  draft : ∀ change ∈ changes, modelPricingValues values' change.modelName = change.draft lib
  others : ∀ name ∉ changes.map ModelPricingChange.modelName,
    modelPricingValues values' name = modelPricingValues values name

theorem not_mem_of_checkEach {seen : List String} (h : checkEach seen changes = none) :
    (changes.map ModelPricingChange.modelName).Nodup ∧
      ∀ name ∈ seen, name ∉ changes.map ModelPricingChange.modelName := by
  induction changes generalizing seen with
  | nil => exact ⟨List.nodup_nil, fun _ _ => List.not_mem_nil⟩
  | cons change changes ih =>
    unfold checkEach at h
    split at h
    · cases h
    · next hseen =>
      split at h
      · cases h
      · obtain ⟨hnodup, hnot⟩ := ih h
        refine ⟨List.nodup_cons.mpr ⟨hnot _ List.mem_cons_self, hnodup⟩, fun name hname hmem => ?_⟩
        rcases List.mem_cons.mp hmem with rfl | hmem
        · exact hseen hname
        · exact hnot name (List.mem_cons_of_mem _ hname) hmem

/-- The changes of an update that gets past its checks are about different models. -/
theorem nodup_of_checkChanges (h : checkChanges changes = none) : (changes.map ModelPricingChange.modelName).Nodup := by
  unfold checkChanges at h
  split at h
  · cases h
  · exact (not_mem_of_checkEach h).1

variable [DecidableEq ν]

theorem applyChange_ok (h : applyChange lib values change = .ok values') :
    change.expectedVersion = some (lib.modelPricingVersion (modelPricingValues values change.modelName)) ∧
      Writable change.modelName (change.draft lib) ∧
      values' = replaceModelPricing values change.modelName (change.draft lib) := by
  unfold applyChange at h
  dsimp only at h
  split at h
  · cases h
  · next hversion =>
    split at h
    · next hvalid => exact ⟨not_not.mp hversion, writable_of_validate hvalid, (Except.ok.inj h).symm⟩
    · cases h

theorem mutate_applied (hnames : (changes.map ModelPricingChange.modelName).Nodup)
    (h : mutate lib values changes = .ok values') : Applied lib values values' changes := by
  induction changes generalizing values with
  | nil =>
    obtain rfl : values = values' := Except.ok.inj h
    exact ⟨fun _ h => absurd h List.not_mem_nil, fun _ h => absurd h List.not_mem_nil, fun _ _ => rfl⟩
  | cons change changes ih =>
    rw [List.map_cons, List.nodup_cons] at hnames
    rw [mutate, List.foldlM_cons] at h
    obtain ⟨next, hchange, hrest⟩ := except_bind_ok h
    obtain ⟨hversion, hwritable, rfl⟩ := applyChange_ok hchange
    obtain ⟨hversions, hdrafts, hothers⟩ := ih hnames.2 hrest
    have hother : ∀ change' ∈ changes, change'.modelName ≠ change.modelName := fun change' hmem e =>
      hnames.1 (List.mem_map.mpr ⟨change', hmem, e⟩)
    refine ⟨fun change' hmem => ?_, fun change' hmem => ?_, fun name hname => ?_⟩
    · rcases List.mem_cons.mp hmem with rfl | hmem
      · exact hversion
      · rw [hversions change' hmem, modelPricingValues_replace_of_ne hwritable (hother change' hmem)]
    · rcases List.mem_cons.mp hmem with rfl | hmem
      · rw [hothers _ hnames.1, modelPricingValues_replace hwritable]
      · exact hdrafts change' hmem
    · obtain ⟨hne, hname⟩ := not_or.mp (fun hor => hname (List.mem_cons.mpr hor))
      rw [hothers name hname, modelPricingValues_replace_of_ne hwritable hne]

end Changes

/-! ## What an update knows -/

variable {s : PricingState ν} {i j : ℕ} {update : Update ν} {phase : UpdatePhase}

theorem calls_goto (s : PricingState ν) (i j : ℕ) (phase : UpdatePhase) : (s.goto i phase).calls[j]? =
      if i = j then s.calls[j]?.map fun update => { update with phase } else s.calls[j]? := by
  rw [PricingState.goto, List.getElem?_modify]
  split
  · rfl
  · cases s.calls[j]? <;> rfl

theorem held_goto_of_ne {key : OptionKey} (h : s.locks.Held j key) (hne : j ≠ i) :
    (s.goto i phase).locks.Held j key := by
  unfold PricingState.goto
  dsimp only
  split
  · exact RowLocks.held_release.mpr ⟨h, hne⟩
  · exact h

theorem exclusive_goto (h : s.locks.Exclusive) : (s.goto i phase).locks.Exclusive := by
  unfold PricingState.goto
  dsimp only
  split
  · exact h.release i
  · exact h

variable [DecidableEq ν]

/-- An update has locked what it read, apart from the rows that were missing; one that writes has locked everything. -/
def UpdatePhase.Known (lib : PricingLibrary ν) (table : OptionTable) (held : OptionKey → Prop)
    (changes : List (ModelPricingChange ν)) : UpdatePhase → Prop
  | .inserting values missing =>
    (∀ key ∉ missing, held key ∧ values key = storedMaps lib table key ∧ table key ≠ some none) ∧
      ∀ key ∈ missing, values key = defaultPricingMaps lib key
  | .updating values _ =>
    (∀ key, held key ∧ table key ≠ some none) ∧ mutate lib (storedMaps lib table) changes = .ok values
  | _ => True

structure Serial (lib : PricingLibrary ν) (s : PricingState ν) : Prop where
  exclusive : s.locks.Exclusive
  knows : ∀ (i : ℕ) (update : Update ν), s.calls[i]? = some update →
    update.phase.Known lib s.table (s.locks.Held i) update.changes
  names : ∀ update ∈ s.calls, update.phase.result = none →
    (update.changes.map ModelPricingChange.modelName).Nodup

variable {changes : List (ModelPricingChange ν)} {a : UpdateAction ν} {values : PricingMaps} {result : UpdateResult}

theorem UpdatePhase.Known.mono {table : OptionTable} {held held' : OptionKey → Prop} {phase : UpdatePhase}
    (h : phase.Known lib table held changes) (hsub : ∀ key, held key → held' key) :
    phase.Known lib table held' changes := by
  cases phase with
  | inserting values missing => exact ⟨fun key hkey => ⟨hsub key (h.1 key hkey).1, (h.1 key hkey).2⟩, h.2⟩
  | updating values rest => exact ⟨fun key => ⟨hsub key (h.1 key).1, (h.1 key).2⟩, h.2⟩
  | _ => trivial

/-! ## A call goes on -/

theorem Serial.goto (h : Serial lib s) (hi : s.calls[i]? = some update) (hopen : update.phase.result = none)
    (hknown : phase.Known lib s.table (s.locks.Held i) update.changes) : Serial lib (s.goto i phase) where
  exclusive := exclusive_goto h.exclusive
  knows j update' hj := by
    rw [calls_goto] at hj
    split at hj
    · next hij =>
      subst hij
      rw [hi] at hj
      obtain rfl := Option.some.inj hj
      cases phase with
      | returned result => trivial
      | _ => exact hknown
    · next hij => exact (h.knows j update' hj).mono fun key hkey => held_goto_of_ne hkey (Ne.symm hij)
  names update' hmem hresult := by
    obtain ⟨j, hj⟩ := List.mem_iff_getElem?.mp hmem
    rw [calls_goto] at hj
    split at hj
    · next hij =>
      subst hij
      rw [hi] at hj
      obtain rfl := Option.some.inj hj
      exact h.names update (List.mem_of_getElem? hi) hopen
    · exact h.names update' (List.mem_of_getElem? hj) hresult

theorem Serial.lock (h : Serial lib s) {keys : List OptionKey}
    (hfree : ∀ key ∈ keys, ¬s.locks.heldByOther i key = true) : Serial lib (s.lock i keys) where
  exclusive := h.exclusive.lock hfree
  knows j update' hj := (h.knows j update' hj).mono fun _ hkey => hkey.lock
  names := h.names

/-! ## Steps -/

/-- An insert finds no row of its option. -/
def UpdatePhase.InsertsFresh (s : PricingState ν) (i : ℕ) : UpdatePhase → Prop
  | .inserting _ (key :: _) => s.locks.heldByOther i key = true ∨ (s.table key).isNone = true
  | _ => True

def InsertsFresh (s : PricingState ν) : UpdateAction ν → Prop
  | .proceed i false => ∀ update ∈ s.calls[i]?, update.phase.InsertsFresh s i
  | _ => True

instance (phase : UpdatePhase) : Decidable (phase.InsertsFresh s i) :=
  match phase with
  | .inserting _ (_ :: _) => inferInstanceAs (Decidable (_ ∨ _))
  | .inserting _ [] => .isTrue trivial
  | .waiting => .isTrue trivial
  | .reading => .isTrue trivial
  | .updating _ _ => .isTrue trivial
  | .returned _ => .isTrue trivial

instance (a : UpdateAction ν) : Decidable (InsertsFresh s a) :=
  match a with
  | .proceed i false => inferInstanceAs (Decidable (∀ update ∈ s.calls[i]?, update.phase.InsertsFresh s i))
  | .proceed _ true => .isTrue trivial
  | .call _ _ => .isTrue trivial

/-- The state after a commit. -/
def PricingState.commit (s : PricingState ν) (i : ℕ) (values : PricingMaps) (result : UpdateResult) : PricingState ν :=
  { s with table := fun key => some (some (values key)) }.goto i (.returned result)

/-- An update that has locked every option commits; no other update holds anything. -/
theorem Serial.commit (h : Serial lib s) (hi : s.calls[i]? = some update) (hopen : update.phase.result = none)
    (hall : ∀ key, s.locks.Held i key) (values : PricingMaps) (result : UpdateResult) :
    Serial lib (s.commit i values result) := by
  have hgoto : Serial lib (s.goto i (.returned result)) := h.goto hi hopen trivial
  refine ⟨hgoto.exclusive, fun j update' hj => ?_, hgoto.names⟩
  have hj' := (calls_goto _ i j _).symm.trans hj
  split at hj'
  · obtain ⟨old, -, rfl⟩ := Option.map_eq_some_iff.mp hj'
    trivial
  · next hij =>
    have hnone : ∀ key, ¬s.locks.Held j key := fun key hkey => hij (h.exclusive key i j (hall key) hkey)
    have hknown := h.knows j update' hj'
    cases hphase : update'.phase with
    | inserting values' missing =>
      rw [hphase] at hknown
      exact ⟨fun key hkey => absurd (hknown.1 key hkey).1 (hnone key), hknown.2⟩
    | updating values' rest =>
      rw [hphase] at hknown
      exact absurd (hknown.1 .pluginBillingExpr).1 (hnone _)
    | _ => trivial

theorem Serial.proceedAt (h : Serial lib s) (hi : s.calls[i]? = some update)
    (hfresh : update.phase.InsertsFresh s i) : Serial lib (proceedAt lib s i update) := by
  have hknown := h.knows i update hi
  unfold ModelPricing.proceedAt
  cases hphase : update.phase with
  | waiting =>
    dsimp only
    split
    · exact h
    · exact h.goto hi (by rw [hphase]; rfl) trivial
  | reading =>
    dsimp only
    split
    · exact h
    · next hfree =>
      have hother : ∀ key ∈ modelPricingOptionKeys.filter (fun key => (s.table key).isSome),
          ¬s.locks.heldByOther i key = true := by
        intro key hkey hheld
        obtain ⟨hmem, hsome⟩ := List.mem_filter.mp hkey
        exact hfree (List.any_eq_true.mpr ⟨key, hmem, by rw [hsome, hheld]; rfl⟩)
      split
      · exact h.goto hi (by rw [hphase]; rfl) trivial
      · next values hvalues =>
        unfold readModelPricingMaps at hvalues
        split at hvalues
        · cases hvalues
        · next hobjects =>
          obtain rfl := Option.some.inj hvalues
          have hpresent : ∀ key ∉ missingKeys s.table, (s.table key).isSome = true := by
            intro key hkey
            by_contra hnone
            rw [Bool.not_eq_true, Option.isSome_eq_false_iff] at hnone
            exact hkey (List.mem_filter.mpr ⟨mem_modelPricingOptionKeys key, hnone⟩)
          refine (h.lock hother).goto hi (by rw [hphase]; rfl) ⟨fun key hkey => ⟨?_, rfl, fun hbad => ?_⟩, ?_⟩
          · exact RowLocks.held_lock_self (List.mem_filter.mpr ⟨mem_modelPricingOptionKeys key, hpresent key hkey⟩)
          · exact hobjects (List.any_eq_true.mpr ⟨key, mem_modelPricingOptionKeys key, decide_eq_true hbad⟩)
          · intro key hkey
            have hnone := Option.isNone_iff_eq_none.mp (List.mem_filter.mp hkey).2
            rw [storedMaps, hnone]
  | inserting values missing =>
    rw [hphase] at hknown hfresh
    have hopen : update.phase.result = none := by rw [hphase]; rfl
    cases missing with
    | cons key missing =>
      dsimp only
      split
      · exact h
      · next hfree =>
        have hnone : s.table key = none := Option.isNone_iff_eq_none.mp (hfresh.resolve_left hfree)
        rw [if_neg (by rw [hnone]; decide)]
        have hlock : Serial lib (s.lock i [key]) := h.lock fun k hk => by rw [List.mem_singleton.mp hk]; exact hfree
        refine hlock.goto hi hopen ⟨fun k hk => ?_, fun k hk => ?_⟩
        · by_cases hkey : k = key
          · -- the row is its own insert now, with the default
            subst hkey
            refine ⟨RowLocks.held_lock_self List.mem_cons_self, ?_, ?_⟩
            · change values k = storedMaps lib s.table k
              rw [storedMaps, hnone, hknown.2 k List.mem_cons_self]
            · change s.table k ≠ some none
              rw [hnone]
              simp
          · have hold := hknown.1 k fun hmem => (List.mem_cons.mp hmem).elim hkey hk
            exact ⟨hold.1.lock, hold.2⟩
        · exact hknown.2 k (List.mem_cons_of_mem _ hk)
    | nil =>
      have hstored : values = storedMaps lib s.table := funext fun key => (hknown.1 key List.not_mem_nil).2.1
      dsimp only
      split
      · exact h.goto hi hopen trivial
      · next values' hvalues =>
        rw [hstored] at hvalues
        refine h.goto hi hopen ⟨fun key => ?_, hvalues⟩
        exact ⟨(hknown.1 key List.not_mem_nil).1, (hknown.1 key List.not_mem_nil).2.2⟩
  | updating values rest =>
    rw [hphase] at hknown
    have hopen : update.phase.result = none := by rw [hphase]; rfl
    cases rest with
    | cons key rest =>
      dsimp only
      split
      · exact h
      · next hfree =>
        have hlock : Serial lib (s.lock i [key]) := h.lock fun k hk => by rw [List.mem_singleton.mp hk]; exact hfree
        exact hlock.goto hi hopen ⟨fun k => ⟨(hknown.1 k).1.lock, (hknown.1 k).2⟩, hknown.2⟩
    | nil => exact h.commit hi hopen (fun key => (hknown.1 key).1) values _
  | returned result => exact h

theorem result_of_hasMutex {phase : UpdatePhase} (h : phase.hasMutex = true) : phase.result = none := by
  cases phase with
  | returned result => cases h
  | _ => rfl

theorem Serial.step (h : Serial lib s) (ha : InsertsFresh s a) : Serial lib (updateStep lib s a) := by
  cases a with
  | call process changes =>
    obtain ⟨phase, hstep, hknown, hnames⟩ : ∃ phase : UpdatePhase,
        updateStep lib s (.call process changes) = { s with calls := s.calls ++ [⟨process, changes, phase⟩] } ∧
        phase.Known lib s.table (fun _ => False) changes ∧
          (phase.result = none → (changes.map ModelPricingChange.modelName).Nodup) := by
      cases hcheck : checkChanges changes with
      | some result =>
        exact ⟨.returned result, by simp only [updateStep, hcheck], trivial, fun hopen => by cases hopen⟩
      | none => exact ⟨.waiting, by simp only [updateStep, hcheck], trivial, fun _ => nodup_of_checkChanges hcheck⟩
    have hnew : ∀ update, update ∈ [Update.mk process changes phase] →
        update.phase.Known lib s.table (fun _ => False) update.changes ∧
          (update.phase.result = none → (update.changes.map ModelPricingChange.modelName).Nodup) := by
      intro update hmem
      rw [List.mem_singleton.mp hmem]
      exact ⟨hknown, hnames⟩
    rw [hstep]
    refine ⟨h.exclusive, fun j update hj => ?_, fun update hmem hopen => ?_⟩
    · rcases Nat.lt_or_ge j s.calls.length with hlt | hge
      · exact h.knows j update ((List.getElem?_append_left hlt).symm.trans hj)
      · have hmem := List.mem_of_getElem? ((List.getElem?_append_right hge).symm.trans hj)
        exact (hnew update hmem).1.mono fun _ hfalse => hfalse.elim
    · rcases List.mem_append.mp hmem with hmem | hmem
      · exact h.names update hmem hopen
      · exact (hnew update hmem).2 hopen
  | proceed i fails =>
    dsimp only [updateStep]
    split
    · exact h
    · next update hi =>
      split
      · next hfails => exact h.goto hi (result_of_hasMutex hfails.2) trivial
      · next hgoes =>
        cases fails with
        | false => exact h.proceedAt hi (ha update hi)
        | true =>
          -- a call that waits for the mutex, or has returned, does not talk to the database
          refine h.proceedAt hi ?_
          cases hphase : update.phase with
          | inserting values missing => exact absurd ⟨rfl, by rw [hphase]; rfl⟩ hgoes
          | _ => trivial

/-! ## Commits -/

/-- The results of a transaction that has committed. -/
def UpdateResult.committed : UpdateResult → Bool
  | .saved => true
  | .loadFailed => true
  | _ => false

/-- The step brings the result of a commit to the call. -/
def Commits (s s' : PricingState ν) (i : ℕ) : Prop :=
  ∃ update update', s.calls[i]? = some update ∧ s'.calls[i]? = some update' ∧ update.phase.result = none ∧
    ∃ result, update'.phase.result = some result ∧ result.committed = true

/-- A step of a call without a commit. -/
structure Uncommitted (s s' : PricingState ν) (i : ℕ) : Prop where
  table : s'.table = s.table
  calls : s'.calls = s.calls ∨
    ∃ phase, (∀ result, phase.result = some result → result.committed = false) ∧ s'.calls = (s.goto i phase).calls

omit [DecidableEq ν] in
theorem not_commits_of_uncommitted {s' : PricingState ν} (h : Uncommitted s s' i) (j : ℕ) : ¬Commits s s' j := by
  rintro ⟨update, update', hj, hj', hopen, result, hresult, hcommitted⟩
  rcases h.calls with hcalls | ⟨phase, hphase, hcalls⟩
  · rw [hcalls, hj] at hj'
    obtain rfl := Option.some.inj hj'
    rw [hopen] at hresult
    cases hresult
  · rw [hcalls, calls_goto, hj] at hj'
    split at hj'
    · obtain rfl := Option.some.inj hj'
      exact absurd ((hphase result hresult).symm.trans hcommitted) Bool.false_ne_true
    · obtain rfl := Option.some.inj hj'
      rw [hopen] at hresult
      cases hresult

theorem applyChange_error {change : ModelPricingChange ν} (h : applyChange lib values change = .error result) :
    result.committed = false := by
  unfold applyChange at h
  dsimp only at h
  split at h
  · rw [← Except.error.inj h]; rfl
  · split at h
    · cases h
    · rw [← Except.error.inj h]; rfl

theorem mutate_error (h : mutate lib values changes = .error result) : result.committed = false := by
  induction changes generalizing values with
  | nil => cases h
  | cons change changes ih =>
    rw [mutate, List.foldlM_cons] at h
    cases hchange : applyChange lib values change with
    | error result' =>
      rw [hchange] at h
      obtain rfl : result' = result := Except.error.inj h
      exact applyChange_error hchange
    | ok next =>
      rw [hchange] at h
      exact ih h

/-- A step of a call is a commit of what it has computed, or commits nothing. -/
theorem proceedAt_cases (lib : PricingLibrary ν) (s : PricingState ν) (i : ℕ) (update : Update ν) :
    (∃ values result, update.phase = .updating values [] ∧ proceedAt lib s i update = s.commit i values result ∧
      result.committed = true) ∨ Uncommitted s (proceedAt lib s i update) i := by
  have hstay : Uncommitted s s i := ⟨rfl, .inl rfl⟩
  have hgoto : ∀ phase : UpdatePhase, phase.result = none → Uncommitted s (s.goto i phase) i := fun phase hphase =>
    ⟨rfl, .inr ⟨phase, fun result hresult => by (rw [hphase] at hresult; cases hresult), rfl⟩⟩
  unfold proceedAt
  cases update.phase with
  | waiting =>
    right
    dsimp only
    split
    · exact hstay
    · exact hgoto _ rfl
  | reading =>
    right
    dsimp only
    split
    · exact hstay
    · split
      · exact ⟨rfl, .inr ⟨_, fun result hresult => by (rw [← Option.some.inj hresult]; rfl), rfl⟩⟩
      · exact ⟨rfl, (hgoto _ rfl).calls⟩
  | inserting values missing =>
    right
    cases missing with
    | cons key missing =>
      dsimp only
      split
      · exact hstay
      · split
        · exact hgoto _ rfl
        · exact ⟨rfl, (hgoto _ rfl).calls⟩
    | nil =>
      dsimp only
      split
      · next result hresult =>
        refine ⟨rfl, .inr ⟨_, fun result' hresult' => ?_, rfl⟩⟩
        rw [← Option.some.inj hresult']
        exact mutate_error hresult
      · exact hgoto _ rfl
  | updating values rest =>
    cases rest with
    | cons key rest =>
      right
      dsimp only
      split
      · exact hstay
      · exact ⟨rfl, (hgoto _ rfl).calls⟩
    | nil =>
      refine .inl ⟨values, _, rfl, rfl, ?_⟩
      split <;> rfl
  | returned result => exact .inr hstay

theorem updateStep_cases (lib : PricingLibrary ν) (s : PricingState ν) (a : UpdateAction ν) :
    (∃ i update values result, s.calls[i]? = some update ∧ update.phase = .updating values [] ∧
      updateStep lib s a = s.commit i values result ∧ result.committed = true) ∨
      (updateStep lib s a).table = s.table ∧ ∀ i, ¬Commits s (updateStep lib s a) i := by
  cases a with
  | call process changes =>
    refine .inr ⟨rfl, ?_⟩
    rintro i ⟨update, update', hi, hi', hopen, result, hresult, -⟩
    have hsame := (List.getElem?_append_left (List.getElem?_eq_some_iff.mp hi).1).symm.trans hi'
    obtain rfl := Option.some.inj (hi.symm.trans hsame)
    rw [hopen] at hresult
    cases hresult
  | proceed i fails =>
    dsimp only [updateStep]
    split
    · have hstay : Uncommitted s s i := ⟨rfl, .inl rfl⟩
      exact .inr ⟨rfl, not_commits_of_uncommitted hstay⟩
    · next update hi =>
      split
      · have hfails : Uncommitted s (s.goto i (.returned .failed)) i :=
          ⟨rfl, .inr ⟨_, fun result hresult => by (rw [← Option.some.inj hresult]; rfl), rfl⟩⟩
        exact .inr ⟨rfl, not_commits_of_uncommitted hfails⟩
      · rcases proceedAt_cases lib s i update with ⟨values, result, hphase, hcommit, hcommitted⟩ | huncommitted
        · exact .inl ⟨i, update, values, result, hi, hphase, hcommit, hcommitted⟩
        · exact .inr ⟨huncommitted.table, not_commits_of_uncommitted huncommitted⟩

/-! ## Runs -/

theorem serial_start (table : OptionTable) : Serial lib { table } where
  exclusive := RowLocks.exclusive_nil
  knows i update h := by simp at h
  names update h := absurd h List.not_mem_nil

theorem Serial.applied_of_commits (h : Serial lib s) (hi : s.calls[i]? = some update)
    (hcommits : Commits s (updateStep lib s a) i) :
    Applied lib (storedMaps lib s.table) (storedMaps lib (updateStep lib s a).table) update.changes := by
  rcases updateStep_cases lib s a with ⟨j, committing, values, result, hj, hphase, hstep, -⟩ | ⟨-, hnone⟩
  · rw [hstep] at hcommits ⊢
    obtain ⟨old, new, hold, hnew, hopen, result', hresult, -⟩ := hcommits
    by_cases hij : j = i
    · subst hij
      obtain rfl := Option.some.inj (hi.symm.trans hj)
      have hknown := h.knows j update hj
      rw [hphase] at hknown
      exact mutate_applied (h.names update (List.mem_of_getElem? hj) (by rw [hphase]; rfl)) hknown.2
    · have hsame := (calls_goto _ j i _).symm.trans hnew
      rw [if_neg hij] at hsame
      obtain rfl := Option.some.inj (hold.symm.trans hsame)
      rw [hopen] at hresult
      cases hresult
  · exact absurd hcommits (hnone i)

/-- **No lost price.** Where no insert finds a row, an update that commits was applied to the options as they are
stored right before its commit, and it changes nothing but the models that it is about. A step without a commit leaves
the options as they are. -/
theorem updates_applied (lib : PricingLibrary ν) (table : OptionTable) (as : List (UpdateAction ν))
    (hfresh : Along (updateStep lib) InsertsFresh { table } as) :
    Along (updateStep lib) (fun s a => ∀ i update, s.calls[i]? = some update → Commits s (updateStep lib s a) i →
        Applied lib (storedMaps lib s.table) (storedMaps lib (updateStep lib s a).table) update.changes) { table } as ∧
      Along (updateStep lib) (fun s a =>
        (∀ i, ¬Commits s (updateStep lib s a) i) → (updateStep lib s a).table = s.table) { table } as := by
  constructor
  · have hstep : ∀ s a, Serial lib s → InsertsFresh s a → Serial lib (updateStep lib s a) := fun s a h ha => h.step ha
    refine along_of_invariant_along (Q := InsertsFresh) hstep (fun s a h _ i update hi hcommits => ?_)
      (serial_start table) hfresh
    exact h.applied_of_commits hi hcommits
  · refine Along.of_forall (fun s a hnone => ?_) _ as
    rcases updateStep_cases lib s a with ⟨i, update, values, result, hi, hphase, hstep, hcommitted⟩ | ⟨htable, -⟩
    · refine absurd ?_ (hnone i)
      rw [hstep]
      refine ⟨update, { update with phase := .returned result }, hi, ?_, by rw [hphase]; rfl, result, rfl, hcommitted⟩
      refine (calls_goto _ i i _).trans ((if_pos rfl).trans ?_)
      exact congrArg (Option.map _) hi
    · exact htable

/-- Prices are their own version, nothing has a default, and no plugin declares a model. -/
def plainLibrary : PricingLibrary PricingValues where
  modelPricingVersion values := values
  defaults _ := ∅
  builtin := ∅
  declares _ _ := false
  declares_valid _ _ h := absurd h Bool.false_ne_true
  smokeTestTaskExpr _ _ _ := false
  acceptsExpr _ _ _ _ := false
  loads _ := true

/-- A model that has no prices gets one. -/
def firstPrice (modelName : String) (x : ℚ) : ModelPricingChange PricingValues where
  modelName
  expectedVersion := some ⟨fun _ => none, ∅⟩
  pricing := ⟨fun option => if option = .modelPrice then some (.number x) else none, ∅⟩

/-- A first update inserts every row and commits. -/
def oneFirstUpdate : List (UpdateAction PricingValues) :=
  .call 0 [firstPrice "a" 1] :: List.replicate 26 (.proceed 0 false)

theorem updates_applied_oneFirstUpdate :
    Along (updateStep plainLibrary) (fun s a => ∀ i update, s.calls[i]? = some update →
        Commits s (updateStep plainLibrary s a) i →
        Applied plainLibrary (storedMaps plainLibrary s.table)
          (storedMaps plainLibrary (updateStep plainLibrary s a).table) update.changes)
        { table := fun _ => none } oneFirstUpdate ∧
      Along (updateStep plainLibrary) (fun s a => (∀ i, ¬Commits s (updateStep plainLibrary s a) i) →
        (updateStep plainLibrary s a).table = s.table) { table := fun _ => none } oneFirstUpdate :=
  updates_applied plainLibrary (fun _ => none) oneFirstUpdate (by decide +kernel)

/-- Two processes read the empty table before either of them inserts a row. -/
def twoFirstUpdates : List (UpdateAction PricingValues) :=
  ([.call 0 [firstPrice "a" 1], .call 1 [firstPrice "b" 2], .proceed 0 false, .proceed 1 false, .proceed 0 false,
    .proceed 1 false] : List (UpdateAction PricingValues)) ++
  List.replicate 24 (UpdateAction.proceed 0 false) ++ List.replicate 24 (UpdateAction.proceed 1 false)

/-- The price of a model in a state of the tables. -/
def priceOf (s : PricingState PricingValues) (name : String) : Option PricingValue :=
  (modelPricingValues (storedMaps plainLibrary s.table) name).option .modelPrice

/-- Both updates are saved, and the second one takes back the price that the first one had stored. -/
theorem first_price_lost :
    let before := run (updateStep plainLibrary) { table := fun _ => none } twoFirstUpdates.dropLast
    let after := run (updateStep plainLibrary) { table := fun _ => none } twoFirstUpdates
    after.calls.map (fun update => update.phase.result) = [some .saved, some .saved] ∧
      priceOf before "a" = some (.number 1) ∧ priceOf after "a" = none ∧ priceOf after "b" = some (.number 2) := by
  decide +kernel

end Vancine.ModelPricing
