import Std.Data.String.ToInt
import Vancine.Authz.Policy

/-!
# Two routes to the same permissions

Permissions are set through the enforcer, or in a transaction that the enforcer reads afterwards. Both replace, for each
resource that is listed, the entries of the user by those that differ from the baseline. A decision depends only on
which entries there are, so the routes agree.
-/

namespace Vancine.Authz

abbrev Entry := (_ : String) × AList fun _ : String => Bool

/-! ## Replacing what is hit -/

section Replace

variable {α ι : Type*}

/-- Each step takes out what it hits and puts in what is new; nothing new is hit later. -/
theorem mem_foldl_replace {step : List α → ι → List α} (hit new : ι → α → Prop)
    (hstep : ∀ l i x, x ∈ step l i ↔ x ∈ l ∧ ¬hit i x ∨ new i x) {is : List ι}
    (hpair : is.Pairwise fun i j => ∀ x, new i x → ¬hit j x) {l : List α} {x : α} :
    x ∈ is.foldl step l ↔ (x ∈ l ∧ ∀ i ∈ is, ¬hit i x) ∨ ∃ i ∈ is, new i x := by
  induction is generalizing l with
  | nil => simp
  | cons i is ih =>
    obtain ⟨hhead, htail⟩ := List.pairwise_cons.mp hpair
    rw [List.foldl_cons, ih htail, hstep, List.forall_mem_cons, List.exists_mem_cons_iff]
    constructor
    · rintro (⟨⟨hx, hi⟩ | hnew, hrest⟩ | hlater)
      · exact Or.inl ⟨hx, hi, hrest⟩
      · exact Or.inr (Or.inl hnew)
      · exact Or.inr (Or.inr hlater)
    · rintro (⟨hx, hi, hrest⟩ | hnew | hlater)
      · exact Or.inl ⟨Or.inl ⟨hx, hi⟩, hrest⟩
      · exact Or.inl ⟨Or.inr hnew, fun j hj => hhead j hj x hnew⟩
      · exact Or.inr hlater

end Replace

/-! ## The registry -/

theorem nodup_catalogActions (resource : String) : (catalogActions resource).Nodup := by
  have hall : ∀ known ∈ registry, known.actions.Nodup := by decide
  unfold catalogActions
  cases hfind : registry.find? (·.resource = resource) with
  | none => exact List.nodup_nil
  | some known => exact hall known (List.mem_of_find?_eq_some hfind)

variable {resource action : String}

theorem mem_catalogActions : action ∈ catalogActions resource ↔ isKnownPermission resource action = true := by
  by_cases haudit : resource = "audit"
  · subst haudit
    simp [catalogActions, isKnownPermission, registry]
  · by_cases hchannel : resource = "channel"
    · subst hchannel
      simp [catalogActions, isKnownPermission, registry]
    · by_cases hplugin : resource = "task_plugin"
      · subst hplugin
        simp [catalogActions, isKnownPermission, registry]
      · simp [catalogActions, isKnownPermission, registry, Ne.symm haudit, Ne.symm hchannel, Ne.symm hplugin]

theorem isKnownResource_of_permission (h : isKnownPermission resource action = true) :
    isKnownResource resource = true := by
  obtain ⟨known, hknown, h⟩ := List.any_eq_true.mp h
  rw [Bool.and_eq_true] at h
  exact List.any_eq_true.mpr ⟨known, hknown, h.1⟩

theorem ne_empty_of_known (h : isKnownPermission resource action = true) : resource ≠ "" ∧ action ≠ "" := by
  have hall : ∀ known ∈ registry, known.resource ≠ "" ∧ "" ∉ known.actions := by decide
  obtain ⟨known, hknown, h⟩ := List.any_eq_true.mp h
  simp only [Bool.and_eq_true, decide_eq_true_eq, List.contains_iff_mem] at h
  refine ⟨h.1 ▸ (hall known hknown).1, ?_⟩
  rintro rfl
  exact (hall known hknown).2 h.2

/-! ## Subjects -/

theorem userSubject_inj {u v : ℤ} (h : userSubject u = userSubject v) : u = v := by
  have hlist := congrArg String.toList h
  rw [userSubject, userSubject, String.toList_append, String.toList_append] at hlist
  exact Int.repr_injective (String.toList_injective (List.append_cancel_left hlist))

theorem roleSubject_ne_userSubject (role : String) (u : ℤ) : roleSubject role ≠ userSubject u := by
  intro h
  have hlist := congrArg String.toList h
  rw [roleSubject, userSubject, String.toList_append, String.toList_append] at hlist
  exact absurd (List.cons.inj hlist).1 (by decide)

theorem userSubject_ne_empty (u : ℤ) : userSubject u ≠ "" := by
  intro h
  have hlist := congrArg String.toList h
  rw [userSubject, String.toList_append] at hlist
  cases hlist

/-! ## Decisions -/

section Decisions

variable {ps qs : List Policy} {subject resource action : String}

theorem any_filteredPolicy (effect : Effect) :
    (filteredPolicy ps subject resource action).any (·.effect = effect) = true ↔
      ⟨subject, resource, action, effect⟩ ∈ ps := by
  simp only [filteredPolicy, List.any_eq_true, List.mem_filter, decide_eq_true_eq]
  constructor
  · rintro ⟨⟨_, _, _, _⟩, ⟨hp, rfl, rfl, rfl⟩, rfl⟩
    exact hp
  · exact fun hp => ⟨_, ⟨hp, rfl, rfl, rfl⟩, rfl⟩

theorem explicitSubjectEffect_eq : explicitSubjectEffect ps subject resource action =
    if ⟨subject, resource, action, .deny⟩ ∈ ps then some .deny
    else if ⟨subject, resource, action, .allow⟩ ∈ ps then some .allow else none := by
  simp only [explicitSubjectEffect, any_filteredPolicy]

theorem explicitSubjectEffect_congr
    (h : ∀ effect, ⟨subject, resource, action, effect⟩ ∈ ps ↔ ⟨subject, resource, action, effect⟩ ∈ qs) :
    explicitSubjectEffect ps subject resource action = explicitSubjectEffect qs subject resource action := by
  simp only [explicitSubjectEffect_eq, h]

theorem can_congr {u systemRole : ℤ} (huser : explicitSubjectEffect ps (userSubject u) resource action =
      explicitSubjectEffect qs (userSubject u) resource action)
    (hrole : ∀ role, roleBaselineAllows ps role resource action = roleBaselineAllows qs role resource action) :
    can ps u systemRole resource action = can qs u systemRole resource action := by
  simp only [can, huser, hrole]

theorem can_admin {u : ℤ} (h : isKnownPermission resource action = true) : can ps u roleAdminUser resource action =
      match explicitSubjectEffect ps (userSubject u) resource action with
      | some effect => decide (effect = .allow)
      | none => roleBaselineAllows ps managedRoleKey resource action := by
  have hroles : resolveSubjectRoles roleAdminUser = ["admin"] := rfl
  have hsuper : isSuperuserRole "admin" = false := by decide
  cases heffect : explicitSubjectEffect ps (userSubject u) resource action <;>
    simp [can, hroles, hsuper, h, heffect, managedRoleKey]

end Decisions

/-! ## Overrides -/

section Overrides

variable {ps qs : List Policy} {resource : String} {actions : AList fun _ : String => Bool} {o : OverridePolicy} {u : ℤ}

/-- An override is a permission that is asked for and not what the baseline gives. -/
theorem mem_userOverridePolicies : o ∈ userOverridePolicies ps resource actions ↔
    o.resource = resource ∧ isKnownPermission resource o.action = true ∧
      ∃ desired, actions.lookup o.action = some desired ∧
        desired ≠ roleBaselineAllows ps managedRoleKey resource o.action ∧ o.effect = effectOf desired := by
  rw [userOverridePolicies, List.mem_insertionSort, List.mem_filterMap]
  constructor
  · rintro ⟨action, haction, h⟩
    split at h
    · cases h
    · next desired hdesired =>
      split at h
      · cases h
      · next hne =>
        cases h
        exact ⟨rfl, mem_catalogActions.mp haction, desired, hdesired, hne, rfl⟩
  · rintro ⟨hresource, hknown, desired, hdesired, hne, heffect⟩
    refine ⟨o.action, mem_catalogActions.mpr hknown, ?_⟩
    rw [hdesired]
    show (if desired = _ then _ else _) = _
    rw [if_neg hne, ← hresource, ← heffect]

theorem nodup_userOverridePolicies : (userOverridePolicies ps resource actions).Nodup := by
  refine (List.perm_insertionSort _ _).nodup_iff.mpr ((nodup_catalogActions resource).filterMap ?_)
  intro a b o ha hb
  have haction {a : String} {desired : Bool} (h : (if desired = roleBaselineAllows ps managedRoleKey resource a then none
      else some (⟨resource, a, effectOf desired⟩ : OverridePolicy)) = some o) : o.action = a := by
    split_ifs at h
    cases h
    rfl
  cases hla : actions.lookup a with
  | none =>
    rw [hla] at ha
    cases ha
  | some desired =>
    cases hlb : actions.lookup b with
    | none =>
      rw [hlb] at hb
      cases hb
    | some desired' =>
      rw [hla] at ha
      rw [hlb] at hb
      exact (haction ha).symm.trans (haction hb)

/-- The same baseline of the managed role. -/
def SameBaseline (ps qs : List Policy) : Prop :=
  ∀ resource action,
    roleBaselineAllows ps managedRoleKey resource action = roleBaselineAllows qs managedRoleKey resource action

theorem SameBaseline.overrides (h : SameBaseline ps qs) (resource : String) (actions : AList fun _ : String => Bool) :
    userOverridePolicies ps resource actions = userOverridePolicies qs resource actions := by
  simp only [userOverridePolicies, h resource]

theorem roleBaselineAllows_congr {role action : String}
    (h : ∀ p : Policy, p.subject = roleSubject role → (p ∈ ps ↔ p ∈ qs)) :
    roleBaselineAllows ps role resource action = roleBaselineAllows qs role resource action := by
  have heffect : explicitSubjectEffect ps (roleSubject role) resource action =
      explicitSubjectEffect qs (roleSubject role) resource action :=
    explicitSubjectEffect_congr fun effect => h ⟨roleSubject role, resource, action, effect⟩ rfl
  rw [roleBaselineAllows, heffect, roleBaselineAllows]

theorem entry_inj : Function.Injective fun o : OverridePolicy => o.entry u := by
  rintro ⟨_, _, _⟩ ⟨_, _, _⟩ h
  cases h
  rfl

end Overrides

/-! ## One resource -/

section Step

variable {u : ℤ} {entry : Entry} {s : Store} {ps : List Policy} {rows : List CasbinRule}

/-- The snapshot takes up all that it does not have, and so do the rows. -/
theorem foldl_addPolicy {l : List Policy} (hnodup : l.Nodup) (hnew : ∀ p ∈ l, p ∉ s.policies) :
    l.foldl Store.addPolicy s = ⟨l.foldl (fun rows p => createRule rows (newRule p)) s.rows, s.policies ++ l⟩ := by
  induction l generalizing s with
  | nil => simp
  | cons p l ih =>
    obtain ⟨hp, hnodup⟩ := List.nodup_cons.mp hnodup
    obtain ⟨hfirst, hrest⟩ := List.forall_mem_cons.mp hnew
    rw [List.foldl_cons, Store.addPolicy, if_neg hfirst, ih hnodup]
    · simp
    · intro q hq hmem
      rcases List.mem_append.mp hmem with hmem | hmem
      · exact hrest q hq hmem
      · exact hp (List.mem_singleton.mp hmem ▸ hq)

theorem mem_foldl_createRule {l : List Policy} {row : CasbinRule} :
    row ∈ l.foldl (fun rows p => createRule rows (newRule p)) rows ↔ row ∈ rows ∨ ∃ p ∈ l, row = newRule p := by
  induction l generalizing rows with
  | nil => simp
  | cons p l ih =>
    have hcreate : ∀ {rule}, rule ∈ createRule rows (newRule p) ↔ rule ∈ rows ∨ rule = newRule p := by
      intro rule
      unfold createRule
      split
      · next hmem => exact ⟨Or.inl, fun h => h.elim id fun h => h ▸ hmem⟩
      · simp
    rw [List.foldl_cons, ih, hcreate, List.exists_mem_cons_iff, or_assoc]

/-- The entries of the user and the resource that are replaced. -/
def Hits (u : ℤ) (entry : Entry) (p : Policy) : Prop :=
  isKnownResource entry.1 = true ∧ p.subject = userSubject u ∧ p.resource = entry.1

def HitsRow (u : ℤ) (entry : Entry) (row : CasbinRule) : Prop :=
  isKnownResource entry.1 = true ∧ row.ptype = "p" ∧ row.v0 = userSubject u ∧ row.v1 = entry.1

/-- The entries that replace them. -/
def Asked (ps : List Policy) (u : ℤ) (entry : Entry) (p : Policy) : Prop :=
  isKnownResource entry.1 = true ∧ ∃ o ∈ userOverridePolicies ps entry.1 entry.2, p = o.entry u

/-- What a step makes of the snapshot, with the overrides that `baseline` asks for. -/
def replaceIn (baseline : List Policy) (u : ℤ) (policies : List Policy) (entry : Entry) : List Policy :=
  if !isKnownResource entry.1 then policies
  else (policies.filter fun p => ¬(p.subject = userSubject u ∧ p.resource = entry.1)) ++
    (userOverridePolicies baseline entry.1 entry.2).map (·.entry u)

theorem Asked.subject {p : Policy} (h : Asked ps u entry p) : p.subject = userSubject u ∧ p.resource = entry.1 := by
  obtain ⟨-, o, ho, rfl⟩ := h
  exact ⟨rfl, (mem_userOverridePolicies.mp ho).1⟩

variable {policies : List Policy}

theorem mem_replaceIn {p : Policy} :
    p ∈ replaceIn ps u policies entry ↔ p ∈ policies ∧ ¬Hits u entry p ∨ Asked ps u entry p := by
  unfold replaceIn Hits Asked
  cases isKnownResource entry.1 with
  | false => simp
  | true =>
    simp only [Bool.not_true, Bool.false_eq_true, if_false, true_and, List.mem_append, List.mem_filter,
      decide_eq_true_eq, List.mem_map]
    exact or_congr Iff.rfl (exists_congr fun o => and_congr_right fun _ => eq_comm)

theorem mem_setResourceInTx {row : CasbinRule} : row ∈ setResourceInTx ps u rows entry ↔
    row ∈ rows ∧ ¬HitsRow u entry row ∨ ∃ p, Asked ps u entry p ∧ row = newRule p := by
  unfold setResourceInTx HitsRow Asked
  cases isKnownResource entry.1 with
  | false => simp
  | true =>
    have hfold : row ∈ ((userOverridePolicies ps entry.1 entry.2).map (·.entry u)).foldl
        (fun rows p => createRule rows (newRule p)) (deleteRules rows (userSubject u) entry.1) ↔ _ :=
      mem_foldl_createRule
    rw [List.foldl_map] at hfold
    simp only [Bool.not_true, Bool.false_eq_true, if_false, true_and]
    rw [hfold, deleteRules, List.mem_filter, decide_eq_true_eq]
    simp

theorem sameBaseline_replaceIn (h : SameBaseline policies ps) (entry : Entry) :
    SameBaseline (replaceIn ps u policies entry) ps := by
  intro resource action
  rw [← h resource action]
  refine roleBaselineAllows_congr fun p hp => ?_
  have hsubject : p.subject ≠ userSubject u := hp ▸ roleSubject_ne_userSubject _ u
  rw [mem_replaceIn]
  exact ⟨fun hmem => hmem.elim And.left fun hasked => absurd hasked.subject.1 hsubject,
    fun hmem => Or.inl ⟨hmem, fun hit => hsubject hit.2.1⟩⟩

theorem setResource_eq (h : SameBaseline s.policies ps) (entry : Entry) :
    setResource u s entry = ⟨setResourceInTx ps u s.rows entry, replaceIn ps u s.policies entry⟩ := by
  unfold setResource setResourceInTx replaceIn
  cases hknown : isKnownResource entry.1 with
  | false => rfl
  | true =>
    have hbase : SameBaseline (s.removeFilteredPolicy (userSubject u) entry.1).policies ps := by
      intro resource action
      rw [← h resource action]
      refine roleBaselineAllows_congr fun p hp => ?_
      have hsubject : p.subject ≠ userSubject u := hp ▸ roleSubject_ne_userSubject _ u
      simp [Store.removeFilteredPolicy, hsubject]
    have hnodup : ((userOverridePolicies ps entry.1 entry.2).map (·.entry u)).Nodup :=
      nodup_userOverridePolicies.map entry_inj
    have hnew : ∀ p ∈ (userOverridePolicies ps entry.1 entry.2).map (·.entry u),
        p ∉ (s.removeFilteredPolicy (userSubject u) entry.1).policies := by
      intro p hp hmem
      obtain ⟨o, ho, rfl⟩ := List.mem_map.mp hp
      have hhit := (List.mem_filter.mp hmem).2
      rw [decide_eq_true_eq] at hhit
      exact hhit ⟨rfl, (mem_userOverridePolicies.mp ho).1⟩
    have hfold := foldl_addPolicy hnodup hnew
    rw [List.foldl_map, List.foldl_map] at hfold
    simp only [Bool.not_true, Bool.false_eq_true, if_false]
    rw [hbase.overrides, hfold]
    rfl

end Step

/-! ## All resources -/

section Run

variable {u : ℤ} {P : PermissionsMap} {ps : List Policy} {rows : List CasbinRule}

theorem foldl_setResource (L : List Entry) {s : Store} (h : SameBaseline s.policies ps) :
    L.foldl (setResource u) s = ⟨L.foldl (setResourceInTx ps u) s.rows, L.foldl (replaceIn ps u) s.policies⟩ := by
  induction L generalizing s with
  | nil => rfl
  | cons entry L ih =>
    rw [List.foldl_cons, setResource_eq h, ih (sameBaseline_replaceIn h entry)]
    rfl

theorem setUserPermissions_eq (s : Store) (u : ℤ) (P : PermissionsMap) : setUserPermissions s u P =
    ⟨setUserPermissionsInTx s u P, P.entries.foldl (replaceIn s.policies u) s.policies⟩ :=
  foldl_setResource P.entries fun _ _ => rfl

theorem keys_pairwise (P : PermissionsMap) : P.entries.Pairwise fun i j => i.1 ≠ j.1 :=
  List.nodupKeys_iff_pairwise.mp P.nodupKeys

theorem mem_policies_after {policies : List Policy} {p : Policy} : p ∈ P.entries.foldl (replaceIn ps u) policies ↔
    (p ∈ policies ∧ ∀ entry ∈ P.entries, ¬Hits u entry p) ∨ ∃ entry ∈ P.entries, Asked ps u entry p :=
  mem_foldl_replace (Hits u) (Asked ps u) (fun _ _ _ => mem_replaceIn)
    ((keys_pairwise P).imp fun hne _ hasked hit => hne (hasked.subject.2.symm.trans hit.2.2))

theorem mem_rows_after {row : CasbinRule} : row ∈ P.entries.foldl (setResourceInTx ps u) rows ↔
    (row ∈ rows ∧ ∀ entry ∈ P.entries, ¬HitsRow u entry row) ∨
      ∃ entry ∈ P.entries, ∃ p, Asked ps u entry p ∧ row = newRule p := by
  refine mem_foldl_replace (HitsRow u) (fun entry row => ∃ p, Asked ps u entry p ∧ row = newRule p)
    (fun _ _ _ => mem_setResourceInTx) ((keys_pairwise P).imp ?_)
  rintro i j hne row ⟨p, hasked, rfl⟩ hit
  exact hne (hasked.subject.2.symm.trans hit.2.2.2)

theorem asked_iff {resource action : String} {effect : Effect} {actions : AList fun _ : String => Bool}
    (hlisted : P.lookup resource = some actions) (hknown : isKnownPermission resource action = true) :
    (∃ entry ∈ P.entries, Asked ps u entry ⟨userSubject u, resource, action, effect⟩) ↔
      ∃ desired, actions.lookup action = some desired ∧
        desired ≠ roleBaselineAllows ps managedRoleKey resource action ∧ effect = effectOf desired := by
  constructor
  · rintro ⟨⟨r, as⟩, hentry, -, o, ho, heq⟩
    obtain ⟨rfl, -, desired, hdesired, hne, heffect⟩ := mem_userOverridePolicies.mp ho
    cases heq
    have has : as = actions := Option.some.inj ((AList.mem_lookup_iff.mpr hentry).symm.trans hlisted)
    exact ⟨desired, has ▸ hdesired, hne, heffect⟩
  · rintro ⟨desired, hdesired, hne, rfl⟩
    refine ⟨⟨resource, actions⟩, AList.mem_lookup_iff.mp hlisted, isKnownResource_of_permission hknown,
      ⟨resource, action, effectOf desired⟩, ?_, rfl⟩
    exact mem_userOverridePolicies.mpr ⟨rfl, hknown, desired, hdesired, hne, rfl⟩

end Run

/-! ## Loading -/

section Load

variable {rows : List CasbinRule} {ps acc : List Policy} {p : Policy} {row : CasbinRule}

theorem loadRule_newRule (hsubject : p.subject ≠ "") (hresource : p.resource ≠ "") (haction : p.action ≠ "") :
    loadRule (newRule p) = .ok (some p) := by
  obtain ⟨subject, resource, action, effect⟩ := p
  cases effect <;> simp_all [loadRule, newRule, Effect.text]

theorem loadRule_some (h : loadRule row = .ok (some p)) :
    row.ptype = "p" ∧ row.v0 = p.subject ∧ row.v1 = p.resource := by
  unfold loadRule at h
  split at h
  · cases h
  · next hptype =>
    split at h
    · cases h
    · split at h
      · cases h
      · cases h
        exact ⟨not_not.mp hptype, rfl, rfl⟩

theorem mem_insertPolicy {q : Policy} : q ∈ insertPolicy acc p ↔ q ∈ acc ∨ q = p := by
  unfold insertPolicy
  split
  · next hmem => exact ⟨Or.inl, fun h => h.elim id fun h => h ▸ hmem⟩
  · simp

theorem foldlM_loadStep (hvalid : ∀ row ∈ rows, ∃ o, loadRule row = .ok o) :
    ∃ ps, rows.foldlM loadStep acc = .ok ps ∧ ∀ p, p ∈ ps ↔ p ∈ acc ∨ ∃ row ∈ rows, loadRule row = .ok (some p) := by
  induction rows generalizing acc with
  | nil => exact ⟨acc, rfl, fun p => by simp⟩
  | cons row rows ih =>
    obtain ⟨⟨o, ho⟩, hrest⟩ := List.forall_mem_cons.mp hvalid
    cases o with
    | none =>
      obtain ⟨ps, hps, hmem⟩ := @ih acc hrest
      have hstep : loadStep acc row = .ok acc := by
        rw [loadStep, ho]
        rfl
      refine ⟨ps, ?_, fun p => ?_⟩
      · rw [List.foldlM_cons, hstep]
        exact hps
      · rw [hmem, List.exists_mem_cons_iff, ho]
        simp
    | some q =>
      obtain ⟨ps, hps, hmem⟩ := @ih (insertPolicy acc q) hrest
      have hstep : loadStep acc row = .ok (insertPolicy acc q) := by
        rw [loadStep, ho]
        rfl
      refine ⟨ps, ?_, fun p => ?_⟩
      · rw [List.foldlM_cons, hstep]
        exact hps
      · rw [hmem, List.exists_mem_cons_iff, ho, mem_insertPolicy, or_assoc]
        simp [eq_comm]

theorem valid_of_foldlM (h : rows.foldlM loadStep acc = .ok ps) : ∀ row ∈ rows, ∃ o, loadRule row = .ok o := by
  induction rows generalizing acc with
  | nil => exact List.forall_mem_nil _
  | cons row rows ih =>
    rw [List.foldlM_cons] at h
    cases ho : loadRule row with
    | error e =>
      rw [loadStep, ho] at h
      cases h
    | ok o =>
      refine List.forall_mem_cons.mpr ⟨⟨o, ho⟩, ?_⟩
      cases hstep : loadStep acc row with
      | error e =>
        rw [hstep] at h
        cases h
      | ok next =>
        rw [hstep] at h
        exact ih h

/-- The snapshot has the entries of the rows. -/
def InStep (rows : List CasbinRule) (policies : List Policy) : Prop :=
  ∃ loaded, loadPolicy rows = .ok loaded ∧ ∀ p, p ∈ policies ↔ p ∈ loaded

theorem InStep.loads (h : InStep rows ps) : (∀ row ∈ rows, ∃ o, loadRule row = .ok o) ∧
    ∀ p, p ∈ ps ↔ ∃ row ∈ rows, loadRule row = .ok (some p) := by
  obtain ⟨loaded, hload, hmem⟩ := h
  have hvalid := valid_of_foldlM hload
  obtain ⟨again, hagain, hrows⟩ := @foldlM_loadStep rows [] hvalid
  obtain rfl : loaded = again := Except.ok.inj (hload.symm.trans hagain)
  refine ⟨hvalid, fun p => ?_⟩
  rw [hmem, hrows]
  simp

theorem inStep_of_loads (hvalid : ∀ row ∈ rows, ∃ o, loadRule row = .ok o)
    (hmem : ∀ p, p ∈ ps ↔ ∃ row ∈ rows, loadRule row = .ok (some p)) : InStep rows ps := by
  obtain ⟨loaded, hload, hrows⟩ := @foldlM_loadStep rows [] hvalid
  refine ⟨loaded, hload, fun p => ?_⟩
  rw [hmem, hrows]
  simp

end Load

/-! ## What is granted -/

/-- The decisions of `after`, when permissions were set for a user and `before` decided until then. -/
structure Grants (u : ℤ) (P : PermissionsMap) (before after : List Policy) : Prop where
  listed : ∀ resource actions action desired, P.lookup resource = some actions →
    actions.lookup action = some desired → isKnownPermission resource action = true →
      can after u roleAdminUser resource action = desired
  unmentioned : ∀ resource actions action, P.lookup resource = some actions → actions.lookup action = none →
    isKnownPermission resource action = true →
      can after u roleAdminUser resource action = roleBaselineAllows before managedRoleKey resource action
  unlisted : ∀ resource action systemRole, P.lookup resource = none →
    can after u systemRole resource action = can before u systemRole resource action
  others : ∀ v systemRole resource action, v ≠ u →
    can after v systemRole resource action = can before v systemRole resource action

/-- A row of the user's that may be replaced. -/
def Replaceable (u : ℤ) (P : PermissionsMap) (row : CasbinRule) : Prop :=
  row.ptype = "p" ∧ row.v0 = userSubject u ∧ isKnownResource row.v1 = true ∧ row.v1 ∈ P

/-- Of the rows that may be replaced only those are stored that differ from the baseline. -/
structure StoresDifferences (u : ℤ) (P : PermissionsMap) (baseline : List Policy) (rows after : List CasbinRule) :
    Prop where
  kept : ∀ row, ¬Replaceable u P row → (row ∈ after ↔ row ∈ rows)
  differs : ∀ row ∈ after, Replaceable u P row → ∃ actions action desired, P.lookup row.v1 = some actions ∧
    actions.lookup action = some desired ∧ desired ≠ roleBaselineAllows baseline managedRoleKey row.v1 action ∧
      row = newRule ⟨userSubject u, row.v1, action, effectOf desired⟩

section Main

variable {rows : List CasbinRule} {policies : List Policy} {u : ℤ} {P : PermissionsMap}

theorem baseline_after (role resource action : String) :
    roleBaselineAllows (P.entries.foldl (replaceIn policies u) policies) role resource action =
      roleBaselineAllows policies role resource action := by
  refine roleBaselineAllows_congr fun p hp => ?_
  have hsubject : p.subject ≠ userSubject u := hp ▸ roleSubject_ne_userSubject _ u
  rw [mem_policies_after]
  refine ⟨fun h => h.elim And.left ?_, fun h => Or.inl ⟨h, fun _ _ hit => hsubject hit.2.1⟩⟩
  rintro ⟨entry, -, hasked⟩
  exact absurd hasked.subject.1 hsubject

/-- Of a listed permission exactly the difference is an entry. -/
theorem effect_after {resource action : String} {actions : AList fun _ : String => Bool}
    (hlisted : P.lookup resource = some actions) (hknown : isKnownPermission resource action = true) :
    explicitSubjectEffect (P.entries.foldl (replaceIn policies u) policies) (userSubject u) resource action =
      ((actions.lookup action).filter fun desired =>
        desired ≠ roleBaselineAllows policies managedRoleKey resource action).map effectOf := by
  have hmem : ∀ effect, ⟨userSubject u, resource, action, effect⟩ ∈ P.entries.foldl (replaceIn policies u) policies ↔
      ∃ desired, actions.lookup action = some desired ∧
        desired ≠ roleBaselineAllows policies managedRoleKey resource action ∧ effect = effectOf desired := by
    intro effect
    rw [mem_policies_after, asked_iff hlisted hknown, or_iff_right]
    rintro ⟨-, hits⟩
    exact hits ⟨resource, actions⟩ (AList.mem_lookup_iff.mp hlisted)
      ⟨isKnownResource_of_permission hknown, rfl, rfl⟩
  rw [explicitSubjectEffect_eq]
  simp only [hmem]
  cases actions.lookup action with
  | none => simp
  | some desired =>
    cases desired <;> cases roleBaselineAllows policies managedRoleKey resource action <;> simp <;> rfl

theorem grants_after : Grants u P policies (P.entries.foldl (replaceIn policies u) policies) where
  listed resource actions action desired hlisted hdesired hknown := by
    rw [can_admin hknown, effect_after hlisted hknown, baseline_after, hdesired]
    cases desired <;> cases roleBaselineAllows policies managedRoleKey resource action <;> rfl
  unmentioned resource actions action hlisted hnone hknown := by
    rw [can_admin hknown, effect_after hlisted hknown, baseline_after, hnone]
    rfl
  unlisted resource action systemRole hnone := by
    refine can_congr (explicitSubjectEffect_congr fun effect => ?_) fun role => baseline_after role resource action
    have hkey : ∀ entry ∈ P.entries, entry.1 ≠ resource := by
      rintro ⟨r, as⟩ hentry rfl
      rw [AList.mem_lookup_iff.mpr hentry] at hnone
      cases hnone
    rw [mem_policies_after]
    refine ⟨fun h => h.elim And.left ?_, fun h => Or.inl ⟨h, fun entry hentry hit => hkey entry hentry hit.2.2.symm⟩⟩
    rintro ⟨entry, hentry, hasked⟩
    exact absurd hasked.subject.2.symm (hkey entry hentry)
  others v systemRole resource action hne := by
    refine can_congr (explicitSubjectEffect_congr fun effect => ?_) fun role => baseline_after role resource action
    rw [mem_policies_after]
    refine ⟨fun h => h.elim And.left ?_, fun h => Or.inl ⟨h, fun _ _ hit => hne (userSubject_inj hit.2.1)⟩⟩
    rintro ⟨entry, -, hasked⟩
    exact absurd (userSubject_inj hasked.subject.1) hne

theorem storesDifferences_after :
    StoresDifferences u P policies rows (P.entries.foldl (setResourceInTx policies u) rows) where
  kept row hrow := by
    have hhit : ∀ entry ∈ P.entries, ¬HitsRow u entry row := by
      rintro ⟨r, as⟩ hentry ⟨hknown, hptype, hsubject, rfl⟩
      exact hrow ⟨hptype, hsubject, hknown, AList.mem_keys.mp (List.mem_map.mpr ⟨_, hentry, rfl⟩)⟩
    rw [mem_rows_after]
    refine ⟨fun h => h.elim And.left ?_, fun h => Or.inl ⟨h, hhit⟩⟩
    rintro ⟨entry, hentry, p, hasked, rfl⟩
    exact absurd ⟨hasked.1, rfl, hasked.subject.1, hasked.subject.2⟩ (hhit entry hentry)
  differs row hrow hreplaceable := by
    obtain ⟨hptype, hsubject, hknown, hlisted⟩ := hreplaceable
    obtain ⟨actions, hactions⟩ := Option.isSome_iff_exists.mp (AList.lookup_isSome.mpr hlisted)
    rcases mem_rows_after.mp hrow with ⟨-, hhit⟩ | ⟨⟨r, as⟩, hentry, p, ⟨hr, o, ho, rfl⟩, rfl⟩
    · exact absurd ⟨hknown, hptype, hsubject, rfl⟩ (hhit ⟨row.v1, actions⟩ (AList.mem_lookup_iff.mp hactions))
    · obtain ⟨resource, action, effect⟩ := o
      obtain ⟨rfl, -, desired, hdesired, hne, rfl⟩ := mem_userOverridePolicies.mp ho
      exact ⟨as, action, desired, AList.mem_lookup_iff.mpr hentry, hdesired, hne, rfl⟩

theorem inStep_after (h : InStep rows policies) :
    InStep (P.entries.foldl (setResourceInTx policies u) rows) (P.entries.foldl (replaceIn policies u) policies) := by
  obtain ⟨hvalid, hmem⟩ := h.loads
  have hnew : ∀ {entry p}, Asked policies u entry p → loadRule (newRule p) = .ok (some p) := by
    rintro entry p ⟨-, o, ho, rfl⟩
    obtain ⟨hresource, hknown, -⟩ := mem_userOverridePolicies.mp ho
    obtain ⟨hr, ha⟩ := ne_empty_of_known hknown
    rw [← hresource] at hr
    exact loadRule_newRule (userSubject_ne_empty u) hr ha
  refine inStep_of_loads ?_ fun p => ?_
  · intro row hrow
    rcases mem_rows_after.mp hrow with ⟨hrow, -⟩ | ⟨entry, -, p, hasked, rfl⟩
    · exact hvalid row hrow
    · exact ⟨_, hnew hasked⟩
  · rw [mem_policies_after]
    constructor
    · rintro (⟨hp, hhit⟩ | ⟨entry, hentry, hasked⟩)
      · obtain ⟨row, hrow, hrule⟩ := (hmem p).mp hp
        obtain ⟨-, hsubject, hresource⟩ := loadRule_some hrule
        refine ⟨row, mem_rows_after.mpr (Or.inl ⟨hrow, fun entry hentry hit => ?_⟩), hrule⟩
        exact hhit entry hentry ⟨hit.1, hsubject.symm.trans hit.2.2.1, hresource.symm.trans hit.2.2.2⟩
      · exact ⟨newRule p, mem_rows_after.mpr (Or.inr ⟨entry, hentry, p, hasked, rfl⟩), hnew hasked⟩
    · rintro ⟨row, hrow, hrule⟩
      rcases mem_rows_after.mp hrow with ⟨hrow, hhit⟩ | ⟨entry, hentry, q, hasked, rfl⟩
      · obtain ⟨hptype, hsubject, hresource⟩ := loadRule_some hrule
        refine Or.inl ⟨(hmem p).mpr ⟨row, hrow, hrule⟩, fun entry hentry hit => ?_⟩
        exact hhit entry hentry ⟨hit.1, hptype, hsubject.trans hit.2.1, hresource.trans hit.2.2⟩
      · rw [hnew hasked] at hrule
        cases hrule
        exact Or.inr ⟨entry, hentry, hasked⟩

theorem Grants.congr {before after reloaded : List Policy} (h : Grants u P before after)
    (hcan : ∀ v systemRole resource action, can after v systemRole resource action =
      can reloaded v systemRole resource action) : Grants u P before reloaded where
  listed resource actions action desired hlisted hdesired hknown := by
    rw [← hcan, h.listed resource actions action desired hlisted hdesired hknown]
  unmentioned resource actions action hlisted hnone hknown := by
    rw [← hcan, h.unmentioned resource actions action hlisted hnone hknown]
  unlisted resource action systemRole hnone := by
    rw [← hcan, h.unlisted resource action systemRole hnone]
  others v systemRole resource action hne := by
    rw [← hcan, h.others v systemRole resource action hne]

end Main

end Vancine.Authz
