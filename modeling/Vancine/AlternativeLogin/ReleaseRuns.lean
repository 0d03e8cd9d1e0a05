import Vancine.AlternativeLogin.GoogleRelease

/-!
# Runs of releases

Only the call that holds the row of the user is past its first statement. A binding on which its decision rests is
locked, so it is still there when the call commits.
-/

namespace Vancine.AlternativeLogin

open Lib

variable {lib : CredentialLibrary} {policy : AlternativeLoginPolicy} {s : Account} {i j : ℕ}

/-! ## What a call knows -/

/-- A login method that counts, and that cannot go while the rows in `held` are locked. -/
def Evidence (lib : CredentialLibrary) (policy : AlternativeLoginPolicy) (db : Database) (held : Row → Prop) : Prop :=
  ∃ user, db.user = some user ∧
    (passwordCounts lib policy user = true ∨
      (policy.passkeyFeatureEnabled = true ∧ db.passkey.any (hasValidPasskey lib) = true) ∨
      builtInCounts policy user = true ∨
      ∃ binding ∈ db.bindings,
        eligible policy binding = true ∧ providerCounts lib db binding = true ∧ held (.binding binding.providerId))

/-- What a call knows of the tables, with the rows that it holds. -/
def Phase.Known (lib : CredentialLibrary) (policy : AlternativeLoginPolicy) (db : Database) (held : Row → Prop) :
    Phase → Prop
  | .start => True
  | .claim user => db.user = some user
  | .passkey user => db.user = some user ∧ policy.passkeyFeatureEnabled = true ∧ db.googleClaim.isSome
  | .bindings => db.user.isSome ∧ db.googleClaim.isSome
  | .provider binding rest =>
    db.user.isSome ∧ db.googleClaim.isSome ∧ eligible policy binding = true ∧
      ∀ x ∈ binding :: rest, x ∈ db.bindings ∧ held (.binding x.providerId)
  | .target => Evidence lib policy db held ∧ db.googleClaim.isSome
  | .deleting => Evidence lib policy db held ∧ db.googleClaim.isSome
  | .clearing _ => Evidence lib policy db held ∧ db.googleClaim.isSome
  | .counting _ => Evidence lib policy db held ∧ db.googleClaim.isSome
  | .readingBack w => Evidence lib policy db held ∧ db.googleClaim.isSome ∧ w.claimDeleted = true
  | .committing w =>
    Evidence lib policy db held ∧ db.googleClaim.isSome ∧ w.claimDeleted = true ∧
      (w.apply db).user.map (·.googleSub) = some ""
  | .returned _ => True

/-- The call has locked the row of the user. -/
def Phase.active : Phase → Bool
  | .start => false
  | .returned _ => false
  | _ => true

/-- The call is what its phase says. -/
def Account.Knows (lib : CredentialLibrary) (policy : AlternativeLoginPolicy) (s : Account) (i : ℕ) (p : Phase) :
    Prop :=
  p.active = true → s.locks.Held i .user ∧ p.Known lib policy s.db (s.locks.Held i)

structure Sound (lib : CredentialLibrary) (policy : AlternativeLoginPolicy) (s : Account) : Prop where
  exclusive : s.locks.Exclusive
  knows : ∀ i p, s.calls[i]? = some p → s.Knows lib policy i p
  released : s.releasedCalls ≤ if s.db.googleClaim.isSome then 0 else 1

variable {db : Database} {q : Phase}

variable {held held' : Row → Prop} {p : Phase} {result : ReleaseResult}

theorem Evidence.mono (h : Evidence lib policy db held) (hsub : ∀ row, held row → held' row) :
    Evidence lib policy db held' := by
  obtain ⟨user, huser, hp | hp | hp | ⟨binding, hmem, he, hv, hheld⟩⟩ := h
  · exact ⟨user, huser, .inl hp⟩
  · exact ⟨user, huser, .inr (.inl hp)⟩
  · exact ⟨user, huser, .inr (.inr (.inl hp))⟩
  · exact ⟨user, huser, .inr (.inr (.inr ⟨binding, hmem, he, hv, hsub _ hheld⟩))⟩

theorem Evidence.hasLogin {held : Row → Prop} (h : Evidence lib policy db held) : HasLogin lib policy db := by
  obtain ⟨user, huser, hp | hp | hp | ⟨binding, hmem, he, hv, -⟩⟩ := h
  · exact ⟨user, huser, .inl hp⟩
  · exact ⟨user, huser, .inr (.inl hp)⟩
  · exact ⟨user, huser, .inr (.inr (.inl hp))⟩
  · exact ⟨user, huser, .inr (.inr (.inr ⟨binding, hmem, he, hv⟩))⟩

theorem Phase.Known.mono (h : p.Known lib policy db held) (hsub : ∀ row, held row → held' row) :
    p.Known lib policy db held' := by
  cases p with
  | start => trivial
  | claim user | passkey user | bindings => exact h
  | provider binding rest => exact ⟨h.1, h.2.1, h.2.2.1, fun x hx => ⟨(h.2.2.2 x hx).1, hsub _ (h.2.2.2 x hx).2⟩⟩
  | returned result => trivial
  | _ => exact ⟨h.1.mono hsub, h.2⟩

theorem HasLogin.apply (h : HasLogin lib policy db) (w : Writes) : HasLogin lib policy (w.apply db) := by
  obtain ⟨user, huser, hlogin⟩ := h
  refine ⟨if w.mirrorCleared then { user with googleSub := "" } else user, ?_, ?_⟩
  · rw [Writes.apply, huser]; rfl
  · split
    · exact hlogin
    · exact hlogin

/-! ## Locks -/

theorem held_goto_of_ne {row : Row} (h : s.locks.Held j row) (hne : j ≠ i) : (s.goto i q).locks.Held j row := by
  unfold Account.goto
  dsimp only
  split
  · exact RowLocks.held_release.mpr ⟨h, hne⟩
  · exact h

theorem exclusive_goto (h : s.locks.Exclusive) : (s.goto i q).locks.Exclusive := by
  unfold Account.goto
  dsimp only
  split
  · exact h.release i
  · exact h

theorem held_goto_active {row : Row} (h : s.locks.Held j row) (hq : q.active = true) :
    (s.goto i q).locks.Held j row := by
  unfold Account.goto
  dsimp only
  cases q with
  | start => exact absurd hq Bool.false_ne_true
  | returned result => exact absurd hq Bool.false_ne_true
  | _ => exact h

theorem calls_goto_of_ne (h : j ≠ i) : (s.goto i q).calls[j]? = s.calls[j]? :=
  List.getElem?_set_ne h.symm

theorem calls_goto_self {p q : Phase} (h : s.calls[i]? = some p) : (s.goto i q).calls[i]? = some q := by
  rw [Account.goto, List.getElem?_set_self (List.getElem?_eq_some_iff.mp h).1]

theorem releasedCalls_goto {p q : Phase} (hi : s.calls[i]? = some p) (hp : p ≠ .returned .released)
    (hq : q ≠ .returned .released) : (s.goto i q).releasedCalls = s.releasedCalls := by
  obtain ⟨hlt, he⟩ := List.getElem?_eq_some_iff.mp hi
  rw [Account.releasedCalls, Account.goto, List.count_set hlt, he]
  simp [hp, hq, Account.releasedCalls]

theorem Sound.goto (h : Sound lib policy s) {p q : Phase} (hi : s.calls[i]? = some p) (hp : p ≠ .returned .released)
    (hq : q ≠ .returned .released) (hknows : s.Knows lib policy i q) : Sound lib policy (s.goto i q) where
  exclusive := exclusive_goto h.exclusive
  knows j r hr := by
    by_cases hji : j = i
    · subst hji
      obtain rfl := Option.some.inj ((calls_goto_self hi).symm.trans hr)
      intro hactive
      obtain ⟨hheld, hknown⟩ := hknows hactive
      exact ⟨held_goto_active hheld hactive, hknown.mono fun row hrow => held_goto_active hrow hactive⟩
    · rw [calls_goto_of_ne hji] at hr
      intro hactive
      obtain ⟨hheld, hknown⟩ := h.knows j r hr hactive
      exact ⟨held_goto_of_ne hheld hji, hknown.mono fun row hrow => held_goto_of_ne hrow hji⟩
  released := (releasedCalls_goto hi hp hq).le.trans h.released

theorem Sound.ends (h : Sound lib policy s) (hi : s.calls[i]? = some p) (hp : p ≠ .returned .released)
    (hresult : result ≠ .released) : Sound lib policy (s.goto i (.returned result)) :=
  h.goto hi hp (fun e => hresult (Phase.returned.inj e)) fun hactive => absurd hactive Bool.false_ne_true

/-- The account with rows locked for a call. -/
def Account.withLocks (s : Account) (i : ℕ) (rows : List Row) : Account := { s with locks := s.locks.lock i rows }

theorem Sound.lockForUpdate (h : Sound lib policy s) {p q : Phase} (hi : s.calls[i]? = some p)
    (hp : p ≠ .returned .released) (hq : q ≠ .returned .released) {rows : List Row}
    (hknows : (s.withLocks i rows).Knows lib policy i q) : Sound lib policy (s.lockForUpdate i rows q) := by
  unfold Account.lockForUpdate
  split
  · exact h
  · next hfree =>
    have hother : ∀ row ∈ rows, ¬s.locks.heldByOther i row = true := fun row hrow hheld =>
      hfree (List.any_eq_true.mpr ⟨row, hrow, hheld⟩)
    have hlocked : Sound lib policy (s.withLocks i rows) := by
      refine ⟨h.exclusive.lock hother, fun j r hr hactive => ?_, h.released⟩
      obtain ⟨hheld, hknown⟩ := h.knows j r hr hactive
      exact ⟨hheld.lock, hknown.mono fun row hrow => hrow.lock⟩
    exact hlocked.goto hi hp hq hknows

/-! ## The decision -/

section Decision

variable {user : User}

theorem nextProvider_ne (bindings : List UserOAuthBinding) : nextProvider policy bindings ≠ .returned .released := by
  induction bindings with
  | nil => exact fun e => ReleaseResult.noConfusion (Phase.returned.inj e)
  | cons binding rest ih =>
    rw [nextProvider]
    split
    · exact fun e => Phase.noConfusion e
    · exact ih

theorem afterPasskey_ne : afterPasskey policy user ≠ .returned .released := by
  unfold afterPasskey
  split <;> exact fun e => Phase.noConfusion e

theorem afterClaim_ne : afterClaim lib policy user ≠ .returned .released := by
  unfold afterClaim
  split
  · exact fun e => Phase.noConfusion e
  · split
    · exact fun e => Phase.noConfusion e
    · exact afterPasskey_ne

theorem knows_nextProvider (huser : s.locks.Held i .user) (hsome : s.db.user.isSome) (hclaim : s.db.googleClaim.isSome)
    {bindings : List UserOAuthBinding}
    (hbindings : ∀ x ∈ bindings, x ∈ s.db.bindings ∧ s.locks.Held i (.binding x.providerId)) :
    s.Knows lib policy i (nextProvider policy bindings) := by
  induction bindings with
  | nil => exact fun hactive => absurd hactive Bool.false_ne_true
  | cons binding rest ih =>
    rw [nextProvider]
    split
    · next heligible => exact fun _ => ⟨huser, hsome, hclaim, heligible, hbindings⟩
    · exact ih fun x hx => hbindings x (List.mem_cons_of_mem _ hx)

theorem knows_afterPasskey (hheld : s.locks.Held i .user) (huser : s.db.user = some user)
    (hclaim : s.db.googleClaim.isSome) : s.Knows lib policy i (afterPasskey policy user) := by
  unfold afterPasskey
  split
  · next hcounts => exact fun _ => ⟨hheld, ⟨user, huser, .inr (.inr (.inl hcounts))⟩, hclaim⟩
  · exact fun _ => ⟨hheld, by rw [huser]; rfl, hclaim⟩

theorem knows_afterClaim (hheld : s.locks.Held i .user) (huser : s.db.user = some user)
    (hclaim : s.db.googleClaim.isSome) : s.Knows lib policy i (afterClaim lib policy user) := by
  unfold afterClaim
  split
  · next hcounts => exact fun _ => ⟨hheld, ⟨user, huser, .inl hcounts⟩, hclaim⟩
  · split
    · next hfeature => exact fun _ => ⟨hheld, huser, hfeature, hclaim⟩
    · exact knows_afterPasskey hheld huser hclaim

end Decision

/-! ## Steps -/

/-- The commit. Nobody else is past the first statement, and the claim is there until now. -/
theorem Sound.commit (h : Sound lib policy s) {w : Writes} (hi : s.calls[i]? = some (.committing w)) :
    Sound lib policy ({ s with db := w.apply s.db }.goto i (.returned .released)) := by
  obtain ⟨huser, -, hclaim, hdeleted, -⟩ := h.knows i _ hi rfl
  refine ⟨exclusive_goto h.exclusive, fun j r hr hactive => ?_, ?_⟩
  · by_cases hji : j = i
    · subst hji
      have hr' := Option.some.inj ((List.getElem?_set_self (List.getElem?_eq_some_iff.mp hi).1).symm.trans hr)
      subst hr'
      exact absurd hactive Bool.false_ne_true
    · have hr' : s.calls[j]? = some r := (List.getElem?_set_ne (Ne.symm hji)).symm.trans hr
      exact absurd (h.exclusive .user j i (h.knows j r hr' hactive).1 huser) hji
  · obtain ⟨hlt, he⟩ := List.getElem?_eq_some_iff.mp hi
    have hnone : s.releasedCalls = 0 := Nat.le_zero.mp (by simpa [hclaim] using h.released)
    have hcount : ({ s with db := w.apply s.db }.goto i (.returned .released)).releasedCalls = 1 := by
      have hcount' : s.calls.count (.returned .released) = 0 := hnone
      rw [Account.releasedCalls, Account.goto, List.count_set hlt, he, hcount']
      simp
    rw [hcount]
    simp [Account.goto, Writes.apply, hdeleted]

theorem Sound.proceed (h : Sound lib policy s) (hi : s.calls[i]? = some p) (outcome : Outcome) :
    Sound lib policy (proceed lib policy s i outcome p) := by
  unfold AlternativeLogin.proceed
  split
  · next hfails =>
    refine h.ends hi (fun e => ?_) (by decide)
    rw [e] at hfails
    exact absurd hfails.2 (by decide)
  · have hknown := h.knows i p hi
    cases p with
    | start =>
      dsimp only [proceedAt]
      split
      · exact h.ends hi (by simp) (by simp)
      · split
        · exact h.ends hi (by simp) (by simp)
        · next user huser =>
          exact h.lockForUpdate hi (by simp) (by simp) fun _ => ⟨RowLocks.held_lock_self List.mem_cons_self, huser⟩
    | claim user =>
      obtain ⟨hheld, huser⟩ := hknown rfl
      dsimp only [proceedAt]
      split
      · exact h.ends hi (by simp) (by simp)
      · next subject hclaim =>
        exact h.goto hi (by simp) afterClaim_ne (knows_afterClaim hheld huser (by rw [hclaim]; rfl))
    | passkey user =>
      obtain ⟨hheld, huser, hfeature, hclaim⟩ := hknown rfl
      dsimp only [proceedAt]
      split
      · exact h.goto hi (by simp) afterPasskey_ne (knows_afterPasskey hheld huser hclaim)
      · next credential hpasskey =>
        have hheld' : (s.withLocks i [.passkey]).locks.Held i .user := RowLocks.Held.lock hheld
        by_cases hvalid : hasValidPasskey lib credential = true
        · rw [if_pos hvalid]
          have hcounts : s.db.passkey.any (hasValidPasskey lib) = true := by rw [hpasskey]; exact hvalid
          exact h.lockForUpdate hi (by simp) (by simp) fun _ =>
            ⟨hheld', ⟨user, huser, .inr (.inl ⟨hfeature, hcounts⟩)⟩, hclaim⟩
        · rw [if_neg hvalid]
          exact h.lockForUpdate hi (by simp) afterPasskey_ne
            (knows_afterPasskey (s := s.withLocks i [Row.passkey]) hheld' huser hclaim)
    | bindings =>
      obtain ⟨hheld, hsome, hclaim⟩ := hknown rfl
      dsimp only [proceedAt]
      refine h.lockForUpdate hi (by simp) (nextProvider_ne _)
        (knows_nextProvider (s := s.withLocks i _) (RowLocks.Held.lock hheld) hsome hclaim fun x hx => ⟨hx, ?_⟩)
      exact RowLocks.held_lock_self (List.mem_map.mpr ⟨x, hx, rfl⟩)
    | provider binding rest =>
      obtain ⟨hheld, hsome, hclaim, heligible, hbindings⟩ := hknown rfl
      dsimp only [proceedAt]
      split
      · exact h.goto hi (by simp) (nextProvider_ne _)
          (knows_nextProvider hheld hsome hclaim fun x hx => hbindings x (List.mem_cons_of_mem _ hx))
      · next provider hprovider =>
        have hheld' : (s.withLocks i [.provider provider.id]).locks.Held i .user := RowLocks.Held.lock hheld
        by_cases hvalid : validateCustomOAuthProvider lib provider = true
        · rw [if_pos hvalid]
          obtain ⟨user, huser⟩ := Option.isSome_iff_exists.mp hsome
          obtain ⟨hmem, hlocked⟩ := hbindings binding List.mem_cons_self
          have hcounts : providerCounts lib s.db binding = true := by rw [providerCounts, hprovider]; exact hvalid
          refine h.lockForUpdate hi (by simp) (by simp) fun _ => ⟨hheld', ⟨user, huser, .inr (.inr (.inr ?_))⟩, hclaim⟩
          exact ⟨binding, hmem, heligible, hcounts, RowLocks.Held.lock hlocked⟩
        · rw [if_neg hvalid]
          refine h.lockForUpdate hi (by simp) (nextProvider_ne _)
            (knows_nextProvider (s := s.withLocks i _) hheld' hsome hclaim fun x hx => ?_)
          exact (hbindings x (List.mem_cons_of_mem _ hx)).imp_right RowLocks.Held.lock
    | target =>
      obtain ⟨hheld, hevidence, hclaim⟩ := hknown rfl
      dsimp only [proceedAt]
      split
      · exact h.ends hi (by simp) (by simp)
      · refine h.lockForUpdate hi (by simp) (by simp) fun _ => ⟨RowLocks.Held.lock hheld, ?_, hclaim⟩
        exact hevidence.mono fun row hrow => RowLocks.Held.lock hrow
    | deleting => exact h.goto hi (by simp) (by simp) fun _ => hknown rfl
    | clearing w => exact h.goto hi (by simp) (by simp) fun _ => hknown rfl
    | counting w =>
      obtain ⟨hheld, hevidence, hclaim⟩ := hknown rfl
      dsimp only [proceedAt]
      split
      · exact h.ends hi (by simp) (by simp)
      · next hcount =>
        refine h.goto hi (by simp) (by simp) fun _ => ⟨hheld, hevidence, hclaim, ?_⟩
        by_contra hnot
        exact hcount (by simpa [Writes.apply, hnot] using hclaim)
    | readingBack w =>
      obtain ⟨hheld, hevidence, hclaim, hdeleted⟩ := hknown rfl
      dsimp only [proceedAt]
      split
      · exact h.ends hi (by simp) (by simp)
      · next user huser =>
        split
        · exact h.ends hi (by simp) (by simp)
        · next hempty =>
          refine h.goto hi (by simp) (by simp) fun _ => ⟨hheld, hevidence, hclaim, hdeleted, ?_⟩
          rw [huser, Option.map_some, not_not.mp hempty]
    | committing w => exact h.commit hi
    | returned result => exact h

theorem Sound.deleteUserOAuthBinding (h : Sound lib policy s) (providerId : ℕ) (outcome : Outcome) :
    Sound lib policy (deleteUserOAuthBinding s providerId outcome) := by
  unfold AlternativeLogin.deleteUserOAuthBinding
  split
  · next hdeletes =>
    have hkept : ∀ j, ∀ x ∈ s.db.bindings, s.locks.Held j (.binding x.providerId) →
        x ∈ s.db.bindings.filter (·.providerId ≠ providerId) := by
      refine fun j x hx hheld => List.mem_filter.mpr ⟨hx, decide_eq_true fun e => hdeletes.2 ?_⟩
      exact List.any_eq_true.mpr ⟨_, hheld, by simp [e]⟩
    have hevidence : ∀ j, Evidence lib policy s.db (s.locks.Held j) →
        Evidence lib policy { s.db with bindings := s.db.bindings.filter (·.providerId ≠ providerId) }
          (s.locks.Held j) := by
      rintro j ⟨user, huser, hp | hp | hp | ⟨binding, hmem, he, hv, hheld⟩⟩
      · exact ⟨user, huser, .inl hp⟩
      · exact ⟨user, huser, .inr (.inl hp)⟩
      · exact ⟨user, huser, .inr (.inr (.inl hp))⟩
      · exact ⟨user, huser, .inr (.inr (.inr ⟨binding, hkept j binding hmem hheld, he, hv, hheld⟩))⟩
    refine ⟨h.exclusive, fun j p hj hactive => ?_, h.released⟩
    obtain ⟨hheld, hknown⟩ := h.knows j p hj hactive
    refine ⟨hheld, ?_⟩
    cases p with
    | start => trivial
    | claim user | passkey user | bindings => exact hknown
    | provider binding rest =>
      obtain ⟨hsome, hclaim, heligible, hbindings⟩ := hknown
      refine ⟨hsome, hclaim, heligible, fun x hx => ?_⟩
      exact ⟨hkept j x (hbindings x hx).1 (hbindings x hx).2, (hbindings x hx).2⟩
    | returned result => trivial
    | _ => exact ⟨hevidence j hknown.1, hknown.2⟩
  · exact h

theorem Sound.step (h : Sound lib policy s) (a : Action) : Sound lib policy (step lib policy s a) := by
  cases a with
  | call =>
    refine ⟨h.exclusive, fun j p hj => ?_, ?_⟩
    · rcases Nat.lt_or_ge j s.calls.length with hlt | hge
      · exact h.knows j p ((List.getElem?_append_left hlt).symm.trans hj)
      · have hmem : p ∈ [Phase.start] := List.mem_of_getElem? ((List.getElem?_append_right hge).symm.trans hj)
        rw [List.mem_singleton.mp hmem]
        exact fun hactive => absurd hactive Bool.false_ne_true
    · have hcount : (s.calls ++ [Phase.start]).count (.returned .released) = s.releasedCalls := by
        rw [List.count_append]; rfl
      exact hcount.le.trans h.released
  | proceed i outcome =>
    dsimp only [AlternativeLogin.step]
    split
    · next p hi => exact h.proceed hi outcome
    · exact h
  | unbind providerId outcome => exact h.deleteUserOAuthBinding providerId outcome

/-! ## Results -/

/-- A step of a call that does not release. -/
structure Keeps (s s' : Account) (i : ℕ) : Prop where
  db : s'.db = s.db
  calls : s'.calls = s.calls ∨ ∃ q ≠ Phase.returned .released, s'.calls = s.calls.set i q

theorem keeps_goto (hq : q ≠ .returned .released) : Keeps s (s.goto i q) i := ⟨rfl, .inr ⟨q, hq, rfl⟩⟩

theorem keeps_lockForUpdate (hq : q ≠ .returned .released) (rows : List Row) :
    Keeps s (s.lockForUpdate i rows q) i := by
  unfold Account.lockForUpdate
  split
  · exact ⟨rfl, .inl rfl⟩
  · exact ⟨rfl, .inr ⟨q, hq, rfl⟩⟩

theorem proceed_cases (s : Account) (i : ℕ) (outcome : Outcome) (p : Phase) : (∃ w, p = .committing w ∧
      proceed lib policy s i outcome p = { s with db := w.apply s.db }.goto i (.returned .released)) ∨
      Keeps s (proceed lib policy s i outcome p) i := by
  unfold proceed
  split
  · exact .inr (keeps_goto (by simp))
  · cases p with
    | committing w => exact .inl ⟨w, rfl, rfl⟩
    | start =>
      right
      dsimp only [proceedAt]
      split
      · exact keeps_goto (by simp)
      · split
        · exact keeps_goto (by simp)
        · exact keeps_lockForUpdate (by simp) _
    | claim user =>
      right
      dsimp only [proceedAt]
      split
      · exact keeps_goto (by simp)
      · exact keeps_goto afterClaim_ne
    | passkey user =>
      right
      dsimp only [proceedAt]
      split
      · exact keeps_goto afterPasskey_ne
      · refine keeps_lockForUpdate ?_ _
        split
        · simp
        · exact afterPasskey_ne
    | bindings => exact .inr (keeps_lockForUpdate (nextProvider_ne _) _)
    | provider binding rest =>
      right
      dsimp only [proceedAt]
      split
      · exact keeps_goto (nextProvider_ne _)
      · refine keeps_lockForUpdate ?_ _
        split
        · simp
        · exact nextProvider_ne _
    | target =>
      right
      dsimp only [proceedAt]
      split
      · exact keeps_goto (by simp)
      · exact keeps_lockForUpdate (by simp) _
    | deleting => exact .inr (keeps_goto (by simp))
    | clearing w => exact .inr (keeps_goto (by simp))
    | counting w =>
      right
      dsimp only [proceedAt]
      split <;> exact keeps_goto (by simp)
    | readingBack w =>
      right
      dsimp only [proceedAt]
      split
      · exact keeps_goto (by simp)
      · split <;> exact keeps_goto (by simp)
    | returned result => exact .inr ⟨rfl, .inl rfl⟩

theorem eq_returned_of_result (h : p.result = some result) : p = .returned result := by
  cases p with
  | returned result' => rw [Option.some.inj h]
  | _ => cases h

theorem resultOf_eq_none {s' : Account} (h : s'.calls[i]? = s.calls[i]?) : resultOf s s' i = none := by
  unfold resultOf
  split
  · rfl
  · next hopen => rw [h]; exact Option.not_isSome_iff_eq_none.mp hopen

theorem resultOf_ne_released_of_keeps {s' : Account} (h : Keeps s s' i) (j : ℕ) : resultOf s s' j ≠ some .released := by
  intro hresult
  rcases h.calls with hcalls | ⟨r, hr, hcalls⟩
  · rw [resultOf_eq_none (by rw [hcalls])] at hresult
    cases hresult
  · by_cases hji : j = i
    · subst hji
      unfold resultOf at hresult
      split at hresult
      · cases hresult
      · obtain ⟨q, hq, hreleased⟩ := Option.bind_eq_some_iff.mp hresult
        rw [hcalls] at hq
        have hlt : j < s.calls.length := by simpa using (List.getElem?_eq_some_iff.mp hq).1
        rw [List.getElem?_set_self hlt] at hq
        obtain rfl := Option.some.inj hq
        exact hr (eq_returned_of_result hreleased)
    · rw [resultOf_eq_none (by rw [hcalls, List.getElem?_set_ne (Ne.symm hji)])] at hresult
      cases hresult

theorem commit_of_released {a : Action} (h : resultOf s (step lib policy s a) i = some .released) :
    ∃ w, s.calls[i]? = some (.committing w) ∧
      step lib policy s a = { s with db := w.apply s.db }.goto i (.returned .released) := by
  cases a with
  | call =>
    exfalso
    rcases Nat.lt_or_ge i s.calls.length with hlt | hge
    · rw [resultOf_eq_none (List.getElem?_append_left hlt)] at h
      cases h
    · unfold resultOf at h
      split at h
      · cases h
      · obtain ⟨q, hq, hreleased⟩ := Option.bind_eq_some_iff.mp h
        have hmem : q ∈ [Phase.start] := List.mem_of_getElem? ((List.getElem?_append_right hge).symm.trans hq)
        rw [List.mem_singleton.mp hmem] at hreleased
        cases hreleased
  | proceed j outcome =>
    dsimp only [step] at h ⊢
    cases hj : s.calls[j]? with
    | none =>
      rw [hj] at h
      exact absurd h (resultOf_ne_released_of_keeps (i := j) ⟨rfl, .inl rfl⟩ i)
    | some p =>
      rw [hj] at h
      rcases @proceed_cases lib policy s j outcome p with ⟨w, rfl, hcommit⟩ | hkeeps
      · by_cases hij : i = j
        · subst hij
          exact ⟨w, hj, hcommit⟩
        · dsimp only at h
          rw [hcommit, resultOf_eq_none (List.getElem?_set_ne (Ne.symm hij))] at h
          cases h
      · exact absurd h (resultOf_ne_released_of_keeps hkeeps i)
  | unbind providerId outcome =>
    exfalso
    rw [resultOf_eq_none] at h
    · cases h
    · dsimp only [step, deleteUserOAuthBinding]
      split <;> rfl

/-- What holds right after a release. -/
structure Released (lib : CredentialLibrary) (policy : AlternativeLoginPolicy) (db : Database) : Prop where
  hasLogin : HasLogin lib policy db
  claim : db.googleClaim = none
  mirror : db.user.map (·.googleSub) = some ""

theorem Sound.released_of_result (h : Sound lib policy s) {a : Action}
    (hresult : resultOf s (AlternativeLogin.step lib policy s a) i = some .released) :
    Released lib policy (AlternativeLogin.step lib policy s a).db := by
  obtain ⟨w, hi, hstep⟩ := commit_of_released hresult
  obtain ⟨-, hevidence, -, hdeleted, hmirror⟩ := h.knows i _ hi rfl
  rw [hstep]
  exact ⟨hevidence.hasLogin.apply w, by simp [Account.goto, Writes.apply, hdeleted], hmirror⟩

/-- A step of a call that does not release the identity changes no row. -/
theorem db_eq_of_not_released {outcome : Outcome}
    (h : resultOf s (step lib policy s (.proceed i outcome)) i ≠ some .released) :
    (step lib policy s (.proceed i outcome)).db = s.db := by
  dsimp only [step] at h ⊢
  cases hi : s.calls[i]? with
  | none => rfl
  | some p =>
    rw [hi] at h
    rcases @proceed_cases lib policy s i outcome p with ⟨w, rfl, hcommit⟩ | hkeeps
    · refine absurd ?_ h
      dsimp only
      have hphase : (({ s with db := w.apply s.db } : Account).goto i (.returned .released)).calls[i]? =
          some (.returned .released) :=
        List.getElem?_set_self (List.getElem?_eq_some_iff.mp hi).1
      rw [hcommit, resultOf, hi, hphase]
      rfl
    · exact hkeeps.db

/-- A call that does not release, or does not delete, changes no row. -/
structure Harmless (s s' : Account) (a : Action) : Prop where
  release : ∀ i outcome, a = .proceed i outcome → resultOf s s' i ≠ some .released → s'.db = s.db
  unbind : ∀ providerId outcome, a = .unbind providerId outcome → outcome ≠ .done → s'.db = s.db

theorem harmless (s : Account) (a : Action) : Harmless s (step lib policy s a) a where
  release i outcome := by
    rintro rfl hresult
    exact db_eq_of_not_released hresult
  unbind providerId outcome := by
    rintro rfl hfails
    dsimp only [step, deleteUserOAuthBinding]
    rw [if_neg fun hdeletes => hfails hdeletes.1]

theorem sound_start (db : Database) : Sound lib policy { db } where
  exclusive := RowLocks.exclusive_nil
  knows j p h := by simp at h
  released := Nat.zero_le _

/-- **Self-service release.** Right after a release the account still has a login method, no claim and no mirror; at
most one call releases; and the steps of a call leave every row as it is, apart from the commit of a release. -/
theorem release_keeps_login (lib : CredentialLibrary) (policy : AlternativeLoginPolicy) (db : Database)
    (as : List Action) :
    Along (step lib policy) (fun s a =>
        (∀ i, resultOf s (step lib policy s a) i = some .released → Released lib policy (step lib policy s a).db) ∧
          Harmless s (step lib policy s a) a) { db } as ∧
      (run (step lib policy) { db } as).releasedCalls ≤ 1 := by
  have hstep : ∀ s a, Sound lib policy s → Sound lib policy (step lib policy s a) := fun s a h => h.step a
  refine ⟨along_of_invariant hstep (fun s a h => ?_) (sound_start db) as, ?_⟩
  · exact ⟨fun i hi => h.released_of_result hi, harmless s a⟩
  · refine (run_invariant hstep (sound_start db) as).released.trans ?_
    split <;> omega

end Vancine.AlternativeLogin
