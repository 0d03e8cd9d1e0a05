import Vancine.UserCache.Fence

/-!
# What a read of the user cache returns

The committed floor never passes the version of the row: it is raised only to versions that calls have
read from committed rows or have committed themselves. So a read that starts after a version was published
returns a snapshot of that version at least, whichever way it goes: the hash is compared with the floor,
and a row read later is at or above it.

The hash is always one committed row with single fields written over it at the same version, except for
its quota, which every whole-row write keeps. A group that was refreshed is the group of some row of that
version, since it is read together with the version.
-/

namespace Vancine.UserCache

open Lib

/-! ## Floors -/

/-- The committed floor stays and does not fall. -/
def UserKeys.CommittedLe (k k' : UserKeys) : Prop :=
  ∀ v, k.committed = some v → ∃ w, k'.committed = some w ∧ v ≤ w

/-- No floor falls while it lives, and what is effective does not fall. -/
structure UserKeys.Raises (k k' : UserKeys) : Prop where
  committed : k.CommittedLe k'
  pending : ∀ p p', k.pending = some p → k'.pending = some p' → p ≤ p'
  floor : k.floor ≤ k'.floor

namespace UserKeys

variable {k k' k'' : UserKeys} {v : ℤ}

theorem Raises.of_eq (hp : k'.pending = k.pending) (hc : k'.committed = k.committed) : k.Raises k' where
  committed := fun v hv => ⟨v, hc.trans hv, Int.le_refl v⟩
  pending := by
    intro p p' h h'
    rw [hp, h] at h'
    cases h'
    exact Int.le_refl p
  floor := by
    unfold UserKeys.floor
    rewrite [hp, hc]
    exact Int.le_refl _

theorem Raises.congr (h : k.Raises k') (hp : k''.pending = k'.pending)
    (hc : k''.committed = k'.committed) : k.Raises k'' where
  committed := by
    intro v hv
    rw [hc]
    exact h.committed v hv
  pending := by
    rw [hp]
    exact h.pending
  floor := by
    have hfloor : k''.floor = k'.floor := by
      unfold UserKeys.floor
      rw [hp, hc]
    rw [hfloor]
    exact h.floor

theorem raises_pass (k : UserKeys) (v : ℤ) : k.Raises (k.pass v) where
  committed := by
    intro w hw
    rw [pass_committed, hw]
    split_ifs with h
    · exact ⟨v, rfl, Int.le_of_lt h⟩
    · exact ⟨w, rfl, Int.le_refl w⟩
  pending := by
    intro p p' h h'
    rw [pass_pending h'] at h
    cases h
    exact Int.le_refl p
  floor := floor_le_pass

theorem raises_writeUserCache (k : UserKeys) (user : UserBase) (includeQuota : Bool) :
    k.Raises (k.writeUserCache user includeQuota).2 := by
  rcases writeUserCache_keys k user includeQuota with ⟨hp, hc⟩ | ⟨hp, hc⟩
  · exact .of_eq hp hc
  · exact (raises_pass k user.authVersion).congr hp hc

theorem raises_updateField (k : UserKeys) (field : UserField) (value : String) (v : ℤ) :
    k.Raises (k.updateUserCacheFieldAtVersion field value v).2 := by
  rcases updateField_keys k field value v with ⟨hp, hc⟩ | ⟨hp, hc⟩
  · exact .of_eq hp hc
  · exact (raises_pass k v).congr hp hc

theorem raises_fence (k : UserKeys) (v : ℤ) : k.Raises (k.setUserAuthVersionFence v) := by
  unfold setUserAuthVersionFence
  split_ifs with hlt
  · refine ⟨fun w hw => ⟨w, hw, Int.le_refl w⟩, ?_, ?_⟩
    · intro p p' h h'
      cases h'
      rw [h] at hlt
      exact Int.le_of_lt hlt
    · unfold UserKeys.floor
      dsimp only [Option.getD_some]
      omega
  · exact .of_eq rfl rfl

/-- A floor that was raised to `v` comes from before or is `v`. -/
theorem pass_committed_cases {w : ℤ} (h : (k.pass v).committed = some w) : k.committed = some w ∨ w = v := by
  rw [pass_committed] at h
  split_ifs at h
  · cases h
    exact .inr rfl
  · exact .inl h

theorem le_floor {w : ℤ} (h : k.committed = some w) : w ≤ k.floor := by
  unfold floor
  rw [h, Option.getD_some]
  omega

end UserKeys

/-! ## Where a hash comes from -/

namespace FenceState

/-- A single field of version `v` is a group that was read with its version, or the value that a caller of
`updateUserCacheField` gave. -/
def Refresh (s : FenceState) (v : ℤ) (f : UserField × String) : Prop :=
  if f.1 = .group then ∃ r ∈ s.rows, r.authVersion = v ∧ r.group = f.2
  else ∃ c ∈ s.calls, c.op.field = some f

/-- A snapshot is one committed row of its version with single fields written over it since, all of that
version, whatever its quota. -/
def Origin (s : FenceState) (h : UserHash) : Prop :=
  ∃ r ∈ s.rows, r.authVersion = h.user.authVersion ∧
    { h.user with quota := r.quota } = h.refreshed.foldl UserBase.set r ∧
    ∀ f ∈ h.refreshed, s.Refresh h.user.authVersion f

/-- What later states have of an earlier one. -/
structure Grows (s s' : FenceState) : Prop where
  rows : ∀ r ∈ s.rows, r ∈ s'.rows
  version : s.row.authVersion ≤ s'.row.authVersion
  ops : ∀ c ∈ s.calls, ∃ d ∈ s'.calls, d.op = c.op
  committed : s.keys.CommittedLe s'.keys

/-- What a call holds. -/
def Held (s : FenceState) (c : Call) : Prop :=
  match c.pc with
  | .cached h => s.Origin h
  | .found user => user ∈ s.rows ∧ ∀ v, c.floor = some v → v ≤ user.authVersion
  | .populate user => user ∈ s.rows ∧ ∀ v, c.floor = some v → v ≤ user.authVersion
  | .update user => user ∈ s.rows
  | .publish authVersion => authVersion ≤ s.row.authVersion
  | .groupWrite _ group authVersion =>
    authVersion ≤ s.row.authVersion ∧ s.Refresh authVersion (.group, group)
  | .fieldRead field value => field ≠ .group ∧ c.op.field = some (field, value)
  | .fieldWrite field value authVersion =>
    authVersion ≤ s.row.authVersion ∧ s.Refresh authVersion (field, value)
  | .returned (.snapshot h) => s.Origin h ∧ ∀ v, c.floor = some v → v ≤ h.user.authVersion
  | _ => True

structure Fenced (s : FenceState) : Prop where
  row_mem : s.row ∈ s.rows
  version_le : ∀ r ∈ s.rows, r.authVersion ≤ s.row.authVersion
  committed_le : ∀ v, s.keys.committed = some v → v ≤ s.row.authVersion
  hash : ∀ h, s.keys.hash = some h → s.Origin h
  floor : ∀ c ∈ s.calls, ∀ v, c.floor = some v → ∃ w, s.keys.committed = some w ∧ v ≤ w
  held : ∀ c ∈ s.calls, s.Held c

section Grows

variable {s s' : FenceState} {v : ℤ} {f : UserField × String} {h : UserHash} {c : Call}

theorem Refresh.mono (hf : s.Refresh v f) (hg : s.Grows s') : s'.Refresh v f := by
  unfold Refresh at hf ⊢
  by_cases hgroup : f.1 = .group
  · rw [if_pos hgroup] at hf ⊢
    obtain ⟨r, hr, hrow⟩ := hf
    exact ⟨r, hg.rows r hr, hrow⟩
  · rw [if_neg hgroup] at hf ⊢
    obtain ⟨c, hc, hop⟩ := hf
    obtain ⟨d, hd, hdc⟩ := hg.ops c hc
    exact ⟨d, hd, by rw [hdc]; exact hop⟩

theorem Origin.mono (ho : s.Origin h) (hg : s.Grows s') : s'.Origin h := by
  obtain ⟨r, hr, hv, heq, hall⟩ := ho
  exact ⟨r, hg.rows r hr, hv, heq, fun f hf => (hall f hf).mono hg⟩

theorem Held.mono (hc : s.Held c) (hg : s.Grows s') : s'.Held c := by
  obtain ⟨op, pc, floor⟩ := c
  cases pc with
  | cached h => exact Origin.mono hc hg
  | found user => exact ⟨hg.rows user hc.1, hc.2⟩
  | populate user => exact ⟨hg.rows user hc.1, hc.2⟩
  | update user => exact hg.rows user hc
  | publish authVersion => exact Int.le_trans hc hg.version
  | groupWrite rounds group authVersion => exact ⟨Int.le_trans hc.1 hg.version, hc.2.mono hg⟩
  | fieldWrite field value authVersion => exact ⟨Int.le_trans hc.1 hg.version, hc.2.mono hg⟩
  | returned result =>
    cases result with
    | snapshot h => exact ⟨hc.1.mono hg, hc.2⟩
    | _ => trivial
  | _ => exact hc

theorem origin_of_mem {user : UserBase} (h : user ∈ s.rows) (quota : ℤ) : s.Origin { user := { user with quota } } :=
  ⟨user, h, rfl, rfl, fun _ hf => absurd hf List.not_mem_nil⟩

theorem Origin.setQuota (ho : s.Origin h) (quota : ℤ) : s.Origin { h with user := { h.user with quota } } := ho

theorem Origin.refreshed (ho : s.Origin h) (hf : s.Refresh h.user.authVersion f) :
    s.Origin ⟨h.user.set f, h.refreshed ++ [f]⟩ := by
  obtain ⟨r, hr, hv, heq, hall⟩ := ho
  refine ⟨r, hr, ?_, ?_, ?_⟩
  · rw [UserBase.set_authVersion]
    exact hv
  · rw [List.foldl_append, ← heq]
    exact (UserBase.set_quota h.user f r.quota).symm
  · intro g hg
    rw [UserBase.set_authVersion]
    rcases List.mem_append.mp hg with hg | hg
    · exact hall g hg
    · rw [List.mem_singleton.mp hg]
      exact hf

end Grows

/-! ## Steps -/

namespace Fenced

variable {s : FenceState} {i : ℕ} {c : Call}

/-- The calls keep what they hold when the rows grow or the floors rise. -/
theorem grow (hI : s.Fenced) {s' : FenceState} (hg : s.Grows s') (hcalls : s'.calls = s.calls)
    (hrow : s'.row ∈ s'.rows) (hle : ∀ r ∈ s'.rows, r.authVersion ≤ s'.row.authVersion)
    (hcommitted : ∀ v, s'.keys.committed = some v → v ≤ s'.row.authVersion)
    (hhash : ∀ h, s'.keys.hash = some h → s'.Origin h) : s'.Fenced where
  row_mem := hrow
  version_le := hle
  committed_le := hcommitted
  hash := hhash
  floor := by
    intro d hd v hv
    rw [hcalls] at hd
    obtain ⟨w, hw, hvw⟩ := hI.floor d hd v hv
    obtain ⟨w', hw', hww⟩ := hg.committed w hw
    exact ⟨w', hw', Int.le_trans hvw hww⟩
  held := by
    intro d hd
    rw [hcalls] at hd
    exact (hI.held d hd).mono hg

theorem store (hI : s.Fenced) (row : UserBase) (presence : Presence)
    (hle : s.row.authVersion ≤ row.authVersion) : { s.store row with presence }.Fenced := by
  have hg : s.Grows { s.store row with presence } :=
    ⟨fun r hr => List.mem_append_left _ hr, hle, fun c hc => ⟨c, hc, rfl⟩, fun v hv => ⟨v, hv, Int.le_refl v⟩⟩
  refine hI.grow hg rfl (List.mem_append_right _ List.mem_cons_self) ?_ ?_ ?_
  · intro r hr
    rcases List.mem_append.mp hr with hr | hr
    · exact Int.le_trans (hI.version_le r hr) hle
    · rw [List.mem_singleton.mp hr]
      exact Int.le_refl _
  · exact fun v hv => Int.le_trans (hI.committed_le v hv) hle
  · exact fun h hh => (hI.hash h hh).mono hg

theorem keys (hI : s.Fenced) {keys : UserKeys} (hraise : s.keys.CommittedLe keys)
    (hcommitted : ∀ v, keys.committed = some v → v ≤ s.row.authVersion)
    (hhash : ∀ h, keys.hash = some h → s.Origin h) : { s with keys }.Fenced :=
  have hg : s.Grows { s with keys } :=
    ⟨fun _ hr => hr, Int.le_refl _, fun c hc => ⟨c, hc, rfl⟩, hraise⟩
  hI.grow hg rfl hI.row_mem hI.version_le hcommitted fun h hh => (hhash h hh).mono hg

theorem grows_goto (hc : s.calls[i]? = some c) (pc : Pc) : s.Grows (s.goto i c pc) where
  rows := fun _ hr => hr
  version := Int.le_refl _
  ops := by
    intro d hd
    obtain ⟨j, hj⟩ := List.getElem?_of_mem hd
    by_cases hij : i = j
    · subst hij
      obtain rfl : c = d := Option.some.inj (hc.symm.trans hj)
      have hlt : i < s.calls.length := (List.getElem?_eq_some_iff.mp hc).1
      exact ⟨{ c with pc }, List.mem_of_getElem? (List.getElem?_set_self hlt), rfl⟩
    · exact ⟨d, List.mem_of_getElem? ((List.getElem?_set_ne hij).trans hj), rfl⟩
  committed := fun v hv => ⟨v, hv, Int.le_refl v⟩

theorem goto (hI : s.Fenced) (hc : s.calls[i]? = some c) {pc : Pc} (hpc : s.Held { c with pc }) :
    (s.goto i c pc).Fenced where
  row_mem := hI.row_mem
  version_le := hI.version_le
  committed_le := hI.committed_le
  hash := fun h hh => (hI.hash h hh).mono (grows_goto hc pc)
  floor := by
    intro d hd
    rcases List.mem_or_eq_of_mem_set hd with hd | rfl
    · exact hI.floor d hd
    · exact hI.floor c (List.mem_of_getElem? hc)
  held := by
    intro d hd
    rcases List.mem_or_eq_of_mem_set hd with hd | rfl
    · exact (hI.held d hd).mono (grows_goto hc pc)
    · exact hpc.mono (grows_goto hc pc)

/-- Every version that a call brings to a script is at most the version of the row. -/
theorem passed (hI : s.Fenced) {k : UserKeys} {v : ℤ} (hv : v ≤ s.row.authVersion)
    (hk : k.committed = s.keys.committed ∨ k.committed = (s.keys.pass v).committed) (w : ℤ)
    (hw : k.committed = some w) : w ≤ s.row.authVersion := by
  rcases hk with hk | hk
  · exact hI.committed_le w (hk.symm.trans hw)
  · rcases UserKeys.pass_committed_cases (hk.symm.trans hw) with hold | rfl
    · exact hI.committed_le w hold
    · exact hv

theorem writeUserCache (hI : s.Fenced) (hc : s.calls[i]? = some c) {user : UserBase}
    (hmem : user ∈ s.rows) (includeQuota : Bool) {ok refused invalid : Pc}
    (hok : ∀ s' : FenceState, s.Grows s' → s'.Held { c with pc := ok })
    (hrefused : ∀ s' : FenceState, s.Grows s' → s'.Held { c with pc := refused })
    (hinvalid : s.Held { c with pc := invalid }) :
    (s.writeUserCache i c user includeQuota ok refused invalid).Fenced := by
  unfold FenceState.writeUserCache
  split_ifs with hpos
  · exact hI.goto hc hinvalid
  · have hraise := UserKeys.raises_writeUserCache s.keys user includeQuota
    have hkeys : { s with keys := (s.keys.writeUserCache user includeQuota).2 }.Fenced := by
      refine hI.keys hraise.committed ?_ ?_
      · refine hI.passed (hI.version_le user hmem) ?_
        exact (UserKeys.writeUserCache_keys s.keys user includeQuota).imp And.right And.right
      · intro h hh
        rcases UserKeys.writeUserCache_hash hh with hold | ⟨quota, rfl⟩
        · exact hI.hash h hold
        · exact origin_of_mem hmem quota
    have hg : s.Grows { s with keys := (s.keys.writeUserCache user includeQuota).2 } :=
      ⟨fun _ hr => hr, Int.le_refl _, fun d hd => ⟨d, hd, rfl⟩, hraise.committed⟩
    have hnext (accepted : Bool) : { s with keys := (s.keys.writeUserCache user includeQuota).2 }.Held
          { c with pc := if accepted then ok else refused } := by
      cases accepted with
      | true => exact hok _ hg
      | false => exact hrefused _ hg
    exact hkeys.goto hc (hnext _)

theorem updateField (hI : s.Fenced) (hc : s.calls[i]? = some c) {field : UserField} {value : String}
    {v : ℤ} (hv : v ≤ s.row.authVersion) (hf : s.Refresh v (field, value)) {ok : Pc}
    (hok : ∀ s' : FenceState, s'.Held { c with pc := ok }) :
    (s.updateField i c field value v ok).Fenced := by
  unfold FenceState.updateField
  split_ifs with hpos
  · exact hI.goto hc trivial
  · have hraise := UserKeys.raises_updateField s.keys field value v
    have hkeys : { s with
        keys := (s.keys.updateUserCacheFieldAtVersion field value v).2 }.Fenced := by
      refine hI.keys hraise.committed ?_ ?_
      · refine hI.passed hv ?_
        exact (UserKeys.updateField_keys s.keys field value v).imp And.right And.right
      · intro h hh
        rcases UserKeys.updateField_hash hh with hold | ⟨h₀, hold, rfl, rfl⟩
        · exact hI.hash h hold
        · exact (hI.hash h₀ hold).refreshed hf
    have hnext (accepted : Bool) : { s with keys := (s.keys.updateUserCacheFieldAtVersion field value v).2 }.Held
          { c with pc := if accepted then ok else .returned .pending } := by
      cases accepted with
      | true => exact hok _
      | false => trivial
    exact hkeys.goto hc (hnext _)

theorem enter (hI : s.Fenced) (hc : s.calls[i]? = some c) : (s.enter i c).Fenced := by
  unfold FenceState.enter
  split
  · cases hhash : s.keys.hash with
    | none => exact hI.goto hc trivial
    | some h =>
      dsimp only
      split_ifs
      · exact hI.goto hc trivial
      · exact hI.goto hc (hI.hash h hhash)
  · rename_i columns _
    split_ifs
    · exact hI.goto hc trivial
    · have hstore := hI.store (s.edited columns s.row.authVersion) s.presence (Int.le_refl _)
      have hheld : ({ s.store (s.edited columns s.row.authVersion) with presence := s.presence }).Held
          { c with pc := .update (s.edited columns s.row.authVersion) } := hstore.row_mem
      exact hstore.goto hc hheld
  · split_ifs <;> exact hI.goto hc trivial
  · exact hI.goto hc trivial
  · exact hI.goto hc trivial
  · exact hI.goto hc trivial
  · exact hI.goto hc trivial
  all_goals
    rename_i hop
    refine hI.goto hc ⟨by decide, ?_⟩
    show c.op.field = _
    rw [hop]
    rfl

theorem committed (hI : s.Fenced) (hc : s.calls[i]? = some c) {next : ℤ}
    (hnext : s.row.authVersion ≤ next) : (s.committed i c next).Fenced := by
  unfold FenceState.committed
  split
  · rename_i columns _ _
    have hstore := hI.store (s.edited columns next) s.presence hnext
    have hheld : ({ s.store (s.edited columns next) with presence := s.presence }).Held
        { c with pc := .update (s.edited columns next) } := hstore.row_mem
    exact hstore.goto hc hheld
  · rename_i columns _
    have hstore := hI.store (s.edited columns next) s.presence hnext
    exact hstore.goto hc trivial
  · have hstore := fun presence => hI.store { s.row with authVersion := next } presence hnext
    exact (hstore _).goto hc (Int.le_refl next)
  · exact hI

/-- The row is at or above the floor that was committed when a call began. -/
theorem floor_le_row (hI : s.Fenced) (hc : s.calls[i]? = some c) (v : ℤ) (hv : c.floor = some v) :
    v ≤ s.row.authVersion := by
  obtain ⟨w, hw, hvw⟩ := hI.floor c (List.mem_of_getElem? hc) v hv
  exact Int.le_trans hvw (hI.committed_le w hw)

theorem proceed (hI : s.Fenced) (hc : s.calls[i]? = some c) : (s.proceed i c).Fenced := by
  have hheld := hI.held c (List.mem_of_getElem? hc)
  unfold FenceState.proceed
  unfold Held at hheld
  cases hpc : c.pc with
  | begun => exact hI.enter hc
  | cached h =>
    rw [hpc] at hheld
    dsimp only
    split_ifs with hfloor
    · exact hI.goto hc trivial
    · refine hI.goto hc ⟨hheld, ?_⟩
      intro v hv
      obtain ⟨w, hw, hvw⟩ := hI.floor c (List.mem_of_getElem? hc) v hv
      exact Int.le_trans hvw (Int.le_trans (UserKeys.le_floor hw) (Int.not_lt.mp hfloor))
  | fallback =>
    dsimp only
    split_ifs
    · exact hI.goto hc trivial
    · have hfloor := hI.floor_le_row hc
      exact hI.goto hc ⟨hI.row_mem, hfloor⟩
  | found user =>
    rw [hpc] at hheld
    dsimp only
    split_ifs
    · exact hI.goto hc trivial
    · exact hI.goto hc hheld
  | populate user =>
    rw [hpc] at hheld
    obtain ⟨hmem, hfloor⟩ := hheld
    have hsnap {s' : FenceState} (hg : s.Grows s') : s'.Held { c with pc := .returned (.snapshot { user }) } :=
      ⟨origin_of_mem (hg.rows user hmem) user.quota, hfloor⟩
    exact hI.writeUserCache hc hmem true (fun _ hg => hsnap hg) (fun _ _ => trivial)
      (hsnap ⟨fun _ hr => hr, Int.le_refl _, fun d hd => ⟨d, hd, rfl⟩, fun v hv => ⟨v, hv, Int.le_refl v⟩⟩)
  | increment tries =>
    cases tries with
    | zero => exact hI.goto hc trivial
    | succ tries =>
      dsimp only
      split_ifs <;> exact hI.goto hc trivial
  | fence tries authVersion =>
    have hraise := UserKeys.raises_fence s.keys (max authVersion 1 + 1)
    have hsame : (s.keys.setUserAuthVersionFence (max authVersion 1 + 1)).committed = s.keys.committed ∧
        (s.keys.setUserAuthVersionFence (max authVersion 1 + 1)).hash = s.keys.hash := by
      unfold UserKeys.setUserAuthVersionFence
      split_ifs <;> exact ⟨rfl, rfl⟩
    have hkeys := hI.keys hraise.committed (fun v hv => hI.committed_le v (hsame.1.symm.trans hv))
      (fun h hh => hI.hash h (hsame.2.symm.trans hh))
    exact hkeys.goto hc trivial
  | commit tries authVersion =>
    dsimp only
    split_ifs with hcas
    · exact hI.committed hc (by omega)
    · exact hI.goto hc trivial
  | reload =>
    dsimp only
    split_ifs
    · exact hI.goto hc trivial
    · exact hI.goto hc hI.row_mem
  | update user =>
    rw [hpc] at hheld
    exact hI.writeUserCache hc hheld false (fun _ _ => trivial) (fun _ _ => trivial) trivial
  | publish authVersion =>
    rw [hpc] at hheld
    have hkeys := hI.keys (UserKeys.raises_pass s.keys authVersion).committed
      (hI.passed hheld (.inr rfl)) hI.hash
    exact hkeys.goto hc trivial
  | invalidate =>
    have hkeys : { s with keys := { s.keys with hash := none } }.Fenced :=
      hI.keys (fun v hv => ⟨v, hv, Int.le_refl v⟩) hI.committed_le fun h hh => nomatch hh
    exact hkeys.goto hc trivial
  | groupRead =>
    dsimp only
    split_ifs
    · exact hI.goto hc trivial
    · exact hI.goto hc ⟨Int.le_refl _, s.row, hI.row_mem, rfl, rfl⟩
  | groupWrite rounds group authVersion =>
    rw [hpc] at hheld
    cases rounds with
    | zero => exact hI.updateField hc hheld.1 hheld.2 fun _ => trivial
    | succ rounds => exact hI.updateField hc hheld.1 hheld.2 fun _ => trivial
  | groupVerify rounds group authVersion =>
    dsimp only
    split_ifs
    · exact hI.goto hc trivial
    · exact hI.goto hc trivial
    · exact hI.goto hc ⟨Int.le_refl _, s.row, hI.row_mem, rfl, rfl⟩
  | fieldRead field value =>
    rw [hpc] at hheld
    dsimp only
    split_ifs
    · exact hI.goto hc trivial
    · refine hI.goto hc ⟨Int.le_refl _, ?_⟩
      unfold Refresh
      rw [if_neg hheld.1]
      exact ⟨c, List.mem_of_getElem? hc, hheld.2⟩
  | fieldWrite field value authVersion =>
    rw [hpc] at hheld
    exact hI.updateField hc hheld.1 hheld.2 fun _ => trivial
  | returned result => exact hI

theorem fail (hI : s.Fenced) (hc : s.calls[i]? = some c) : (s.fail i c).Fenced := by
  have hheld := hI.held c (List.mem_of_getElem? hc)
  unfold Held at hheld
  unfold FenceState.fail
  split
  · exact hI.goto hc trivial
  · exact hI.goto hc trivial
  · rename_i user hpc
    rw [hpc] at hheld
    exact hI.goto hc hheld
  · rename_i user hpc
    rw [hpc] at hheld
    exact hI.goto hc ⟨origin_of_mem hheld.1 user.quota, hheld.2⟩
  · exact hI.goto hc trivial
  · exact hI
  · exact hI.goto hc trivial

theorem step (hI : s.Fenced) (a : FenceAction) : (fenceStep s a).Fenced := by
  cases a with
  | setColumns columns =>
    exact hI.store (s.edited columns s.row.authVersion) s.presence (Int.le_refl _)
  | setQuota quota => exact hI.store { s.row with quota } s.presence (Int.le_refl _)
  | initializeUserAuthVersions =>
    unfold fenceStep
    dsimp only
    split_ifs with hlow
    · exact hI.store { s.row with authVersion := 1 } s.presence (Int.le_of_lt hlow)
    · exact hI
  | cacheIncrUserQuota delta =>
    refine hI.keys (fun v hv => ⟨v, hv, Int.le_refl v⟩) hI.committed_le ?_
    intro h hh
    obtain ⟨h₀, hold, rfl⟩ := Option.map_eq_some_iff.mp hh
    exact (hI.hash h₀ hold).setQuota (h₀.user.quota + delta)
  | expireHash =>
    exact hI.keys (fun v hv => ⟨v, hv, Int.le_refl v⟩) hI.committed_le fun h hh => nomatch hh
  | expirePending => exact hI.keys (fun v hv => ⟨v, hv, Int.le_refl v⟩) hI.committed_le hI.hash
  | begin op =>
    have hg : s.Grows (fenceStep s (.begin op)) :=
      ⟨fun _ hr => hr, Int.le_refl _, fun d hd => ⟨d, List.mem_append_left _ hd, rfl⟩,
        fun v hv => ⟨v, hv, Int.le_refl v⟩⟩
    refine ⟨hI.row_mem, hI.version_le, hI.committed_le, fun h hh => (hI.hash h hh).mono hg, ?_, ?_⟩
    · intro d hd v hv
      rcases List.mem_append.mp hd with hd | hd
      · exact hI.floor d hd v hv
      · rw [List.mem_singleton.mp hd] at hv
        exact ⟨v, hv, Int.le_refl v⟩
    · intro d hd
      rcases List.mem_append.mp hd with hd | hd
      · exact (hI.held d hd).mono hg
      · rw [List.mem_singleton.mp hd]
        trivial
  | proceed i fault =>
    unfold fenceStep
    dsimp only
    cases hc : s.calls[i]? with
    | none => exact hI
    | some c =>
      cases fault with
      | true => exact hI.fail hc
      | false => exact hI.proceed hc

end Fenced

theorem fenced_start (row : UserBase) : (FenceState.start row).Fenced where
  row_mem := List.mem_cons_self
  version_le := by
    intro r hr
    rw [List.mem_singleton.mp hr]
    exact Int.le_refl _
  committed_le := fun v hv => nomatch hv
  hash := fun h hh => nomatch hh
  floor := fun c hc => absurd hc List.not_mem_nil
  held := fun c hc => absurd hc List.not_mem_nil

/-! ## Floors along a run -/

section Raises

variable (s : FenceState) (i : ℕ) (c : Call)

theorem raises_refl : s.keys.Raises s.keys := .of_eq rfl rfl

theorem raises_enter : s.keys.Raises (s.enter i c).keys := by
  unfold enter
  split
  · split
    · exact s.raises_refl
    · split_ifs <;> exact s.raises_refl
  · split_ifs <;> exact s.raises_refl
  · split_ifs <;> exact s.raises_refl
  all_goals exact s.raises_refl

theorem raises_committed (next : ℤ) : s.keys.Raises (s.committed i c next).keys := by
  unfold committed
  split <;> exact s.raises_refl

theorem raises_write (user : UserBase) (includeQuota : Bool) (ok refused invalid : Pc) :
    s.keys.Raises (s.writeUserCache i c user includeQuota ok refused invalid).keys := by
  unfold writeUserCache
  by_cases hpos : user.authVersion ≤ 0
  · rw [if_pos hpos]
    exact s.raises_refl
  · rw [if_neg hpos]
    exact UserKeys.raises_writeUserCache s.keys user includeQuota

theorem raises_field (field : UserField) (value : String) (v : ℤ) (ok : Pc) :
    s.keys.Raises (s.updateField i c field value v ok).keys := by
  unfold updateField
  by_cases hpos : v ≤ 0
  · rw [if_pos hpos]
    exact s.raises_refl
  · rw [if_neg hpos]
    exact UserKeys.raises_updateField s.keys field value v

theorem raises_proceed : s.keys.Raises (s.proceed i c).keys := by
  unfold proceed
  split
  · exact s.raises_enter i c
  · split_ifs <;> exact s.raises_refl
  · split_ifs <;> exact s.raises_refl
  · split_ifs <;> exact s.raises_refl
  · exact s.raises_write i c _ _ _ _ _
  · exact s.raises_refl
  · split_ifs <;> exact s.raises_refl
  · exact UserKeys.raises_fence s.keys _
  · split_ifs
    · exact s.raises_committed i c _
    · exact s.raises_refl
  · split_ifs <;> exact s.raises_refl
  · exact s.raises_write i c _ _ _ _ _
  · exact UserKeys.raises_pass s.keys _
  · exact .of_eq rfl rfl
  · split_ifs <;> exact s.raises_refl
  · exact s.raises_field i c _ _ _ _
  · exact s.raises_field i c _ _ _ _
  · split_ifs <;> exact s.raises_refl
  · split_ifs <;> exact s.raises_refl
  · exact s.raises_field i c _ _ _ _
  · exact s.raises_refl

theorem raises_fail : s.keys.Raises (s.fail i c).keys := by
  unfold fail
  split <;> exact s.raises_refl

theorem raises_step (a : FenceAction) (ha : a ≠ .expirePending) : s.keys.Raises (fenceStep s a).keys := by
  cases a with
  | setColumns columns => exact s.raises_refl
  | setQuota quota => exact s.raises_refl
  | initializeUserAuthVersions =>
    unfold fenceStep
    dsimp only
    split_ifs <;> exact s.raises_refl
  | cacheIncrUserQuota delta => exact .of_eq rfl rfl
  | expireHash => exact .of_eq rfl rfl
  | expirePending => exact absurd rfl ha
  | begin op => exact s.raises_refl
  | proceed i fault =>
    unfold fenceStep
    dsimp only
    cases s.calls[i]? with
    | none => exact s.raises_refl
    | some c =>
      cases fault with
      | true => exact s.raises_fail i c
      | false => exact s.raises_proceed i c

theorem committedLe_step (a : FenceAction) : s.keys.CommittedLe (fenceStep s a).keys := by
  by_cases ha : a = .expirePending
  · subst ha
    exact fun v hv => ⟨v, hv, Int.le_refl v⟩
  · exact (s.raises_step a ha).committed

end Raises

/-! ## Calls along a run -/

section Calls

variable {s : FenceState} {i : ℕ} {c : Call}

/-- A statement of a call changes at most where this call is. -/
def Moves (s : FenceState) (i : ℕ) (c : Call) (s' : FenceState) : Prop :=
  s'.calls = s.calls ∨ ∃ pc, s'.calls = s.calls.set i { c with pc }

theorem moves_goto (pc : Pc) : s.Moves i c (s.goto i c pc) := .inr ⟨pc, rfl⟩

theorem moves_write (user : UserBase) (includeQuota : Bool) (ok refused invalid : Pc) :
    s.Moves i c (s.writeUserCache i c user includeQuota ok refused invalid) := by
  unfold writeUserCache
  by_cases hpos : user.authVersion ≤ 0
  · rw [if_pos hpos]
    exact moves_goto _
  · rw [if_neg hpos]
    exact .inr ⟨_, rfl⟩

theorem moves_field (field : UserField) (value : String) (v : ℤ) (ok : Pc) :
    s.Moves i c (s.updateField i c field value v ok) := by
  unfold updateField
  by_cases hpos : v ≤ 0
  · rw [if_pos hpos]
    exact moves_goto _
  · rw [if_neg hpos]
    exact .inr ⟨_, rfl⟩

theorem moves_enter : s.Moves i c (s.enter i c) := by
  unfold enter
  split
  · split
    · exact moves_goto _
    · split_ifs <;> exact moves_goto _
  · split_ifs <;> exact .inr ⟨_, rfl⟩
  · split_ifs <;> exact moves_goto _
  all_goals exact moves_goto _

theorem moves_proceed : s.Moves i c (s.proceed i c) := by
  unfold proceed
  split
  · exact moves_enter
  · split_ifs <;> exact moves_goto _
  · split_ifs <;> exact moves_goto _
  · split_ifs <;> exact moves_goto _
  · exact moves_write _ _ _ _ _
  · exact moves_goto _
  · split_ifs <;> exact moves_goto _
  · exact .inr ⟨_, rfl⟩
  · split_ifs
    · unfold committed
      split
      · exact .inr ⟨_, rfl⟩
      · exact .inr ⟨_, rfl⟩
      · exact .inr ⟨_, rfl⟩
      · exact .inl rfl
    · exact moves_goto _
  · split_ifs <;> exact moves_goto _
  · exact moves_write _ _ _ _ _
  · exact .inr ⟨_, rfl⟩
  · exact .inr ⟨_, rfl⟩
  · split_ifs <;> exact moves_goto _
  · exact moves_field _ _ _ _
  · exact moves_field _ _ _ _
  · split_ifs <;> exact moves_goto _
  · split_ifs <;> exact moves_goto _
  · exact moves_field _ _ _ _
  · exact .inl rfl

theorem moves_fail : s.Moves i c (s.fail i c) := by
  unfold fail
  split
  · exact moves_goto _
  · exact moves_goto _
  · exact moves_goto _
  · exact moves_goto _
  · exact moves_goto _
  · exact .inl rfl
  · exact moves_goto _

/-- The calls from the `n`th on began after `v` was committed. -/
structure Since (n : ℕ) (v : ℤ) (s : FenceState) : Prop where
  length : n ≤ s.calls.length
  committed : ∃ w, s.keys.committed = some w ∧ v ≤ w
  floor : ∀ (j : ℕ) (d : Call), n ≤ j → s.calls[j]? = some d → ∃ w, d.floor = some w ∧ v ≤ w

variable {n : ℕ} {v : ℤ}

theorem Since.keep (h : Since n v s) {s' : FenceState} (hcalls : s'.calls = s.calls)
    (hk : s.keys.CommittedLe s'.keys) : Since n v s' := by
  obtain ⟨w, hw, hvw⟩ := h.committed
  obtain ⟨w', hw', hww⟩ := hk w hw
  refine ⟨?_, ⟨w', hw', Int.le_trans hvw hww⟩, ?_⟩
  · rw [hcalls]
    exact h.length
  · rw [hcalls]
    exact h.floor

theorem Since.moves (h : Since n v s) {s' : FenceState} (hc : s.calls[i]? = some c)
    (hm : s.Moves i c s') (hk : s.keys.CommittedLe s'.keys) : Since n v s' := by
  rcases hm with hm | ⟨pc, hm⟩
  · exact h.keep hm hk
  · have hkeys : Since n v { s with keys := s'.keys } := h.keep rfl hk
    refine ⟨?_, hkeys.committed, ?_⟩
    · rw [hm, List.length_set]
      exact h.length
    · intro j d hj hd
      rw [hm] at hd
      rcases getElem?_set_cases hc hd with ⟨rfl, rfl⟩ | ⟨-, hd⟩
      · exact h.floor j c hj hc
      · exact h.floor j d hj hd

theorem Since.step (h : Since n v s) (a : FenceAction) : Since n v (fenceStep s a) := by
  have hk := s.committedLe_step a
  cases a with
  | setColumns columns => exact h.keep rfl hk
  | setQuota quota => exact h.keep rfl hk
  | initializeUserAuthVersions =>
    refine h.keep ?_ hk
    unfold fenceStep
    dsimp only
    split_ifs <;> rfl
  | cacheIncrUserQuota delta | expireHash | expirePending => exact h.keep rfl hk
  | begin op =>
    refine ⟨?_, h.committed, ?_⟩
    · refine Nat.le_trans h.length ?_
      show s.calls.length ≤ (s.calls ++ [_]).length
      rw [List.length_append]
      exact Nat.le_add_right _ _
    · intro j d hj hd
      have hd' : (s.calls ++ [⟨op, .begun, s.keys.committed⟩])[j]? = some d := hd
      rcases Nat.lt_or_ge j s.calls.length with hlt | hge
      · rw [List.getElem?_append_left hlt] at hd'
        exact h.floor j d hj hd'
      · rw [List.getElem?_append_right hge] at hd'
        obtain rfl := List.mem_singleton.mp (List.mem_of_getElem? hd')
        exact h.committed
  | proceed i fault =>
    unfold fenceStep at hk ⊢
    dsimp only at hk ⊢
    cases hc : s.calls[i]? with
    | none => exact h
    | some c =>
      rw [hc] at hk
      cases fault with
      | true => exact h.moves hc moves_fail hk
      | false => exact h.moves hc moves_proceed hk

end Calls

end FenceState

/-! ## Every run -/

/-- In every run from the creation of a user:
* once `v` is the committed floor, every later call of `GetUserCache` that returns a snapshot returns one
  of version `v` or above;
* the committed floor stays and never falls, and neither does the pending fence while it lives; the
  effective floor falls only when the fence expires;
* a snapshot that was returned is, but for its quota, one committed row of its version with single fields
  written over it since at that version, of which a group is the group of a row of that version. -/
theorem user_cache_fencing (row : UserBase) (as : List FenceAction) :
    (∀ pre suf, as = pre ++ suf → ∀ v, (run fenceStep (.start row) pre).keys.committed = some v →
      ∀ (i : ℕ) (c : Call) (h : UserHash), (run fenceStep (.start row) pre).calls.length ≤ i →
        (run fenceStep (.start row) as).calls[i]? = some c → c.pc = .returned (.snapshot h) →
        v ≤ h.user.authVersion) ∧
    Along fenceStep
      (fun s a => s.keys.CommittedLe (fenceStep s a).keys ∧
        (a ≠ .expirePending → s.keys.Raises (fenceStep s a).keys)) (.start row) as ∧
    ∀ c ∈ (run fenceStep (.start row) as).calls, ∀ h, c.pc = .returned (.snapshot h) →
      (run fenceStep (.start row) as).Origin h := by
  have hI : (run fenceStep (.start row) as).Fenced :=
    run_invariant (I := FenceState.Fenced) (fun s a hs => hs.step a) (FenceState.fenced_start row) as
  refine ⟨?_, ?_, ?_⟩
  · intro pre suf has v hv i c h hi hc hpc
    have hsince : FenceState.Since (run fenceStep (.start row) pre).calls.length v
        (run fenceStep (.start row) as) := by
      rw [has, run_append]
      refine run_invariant (I := FenceState.Since _ v) (fun s a hs => hs.step a) ?_ suf
      refine ⟨Nat.le_refl _, ⟨v, hv, Int.le_refl v⟩, ?_⟩
      intro j d hj hd
      rw [List.getElem?_eq_none hj] at hd
      cases hd
    obtain ⟨w, hw, hvw⟩ := hsince.floor i c hi hc
    have hheld := hI.held c (List.mem_of_getElem? hc)
    unfold FenceState.Held at hheld
    rw [hpc] at hheld
    exact Int.le_trans hvw (hheld.2 w hw)
  · exact Along.of_forall (fun s a => ⟨s.committedLe_step a, s.raises_step a⟩) _ _
  · intro c hc h hpc
    have hheld := hI.held c hc
    unfold FenceState.Held at hheld
    rw [hpc] at hheld
    exact hheld.1

/-! ## A quota of an older version -/

def member : UserBase where
  group := "default"
  email := ""
  quota := 100
  status := 1
  role := 1
  username := "member"
  setting := ""
  authVersion := 1

/-- The hash is filled at version 1. A charge reaches the row, its delta for the cache is still on its
way, and the user is moved to another group, which bumps the version. The publish keeps the cached quota. -/
def chargedThenMoved : List FenceAction :=
  [.begin .getUserCache, .proceed 0 false, .proceed 0 false, .proceed 0 false, .proceed 0 false,
    .setQuota 50,
    .begin (.edit { member with group := "vip" } true), .proceed 1 false, .proceed 1 false,
    .proceed 1 false, .proceed 1 false, .proceed 1 false,
    .begin .getUserCache, .proceed 2 false, .proceed 2 false]

/-- A snapshot of version 2 with a quota that no row of version 2 ever had, and with no field written over
it. -/
theorem snapshot_with_older_quota :
    ∃ c ∈ (run fenceStep (.start member) chargedThenMoved).calls, ∃ h,
      c.pc = .returned (.snapshot h) ∧ h.user.authVersion = 2 ∧ h.refreshed = [] ∧
        ∀ r ∈ (run fenceStep (.start member) chargedThenMoved).rows,
          r.authVersion = h.user.authVersion → r.quota ≠ h.user.quota := by
  refine ⟨⟨.getUserCache, .returned (.snapshot
    { user := { member with group := "vip", authVersion := 2 } }), some 2⟩, ?_, _, rfl, rfl, rfl, ?_⟩
  · decide
  · decide

end Vancine.UserCache
