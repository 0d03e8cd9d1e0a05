import Vancine.AuthFlows.EmailBinding

/-!
# Runs of email bindings

The row of a flow counts at least the wrong submissions that were evaluated, and a submission is evaluated only while
the count is below the limit. An address is written for one user at a time, and only while the database finds no other
user with it; a stored address that `LOWER` does not bring into normal form is not found.
-/

namespace Vancine.AuthFlows

open Lib

variable {lib : EmailLibrary}

/-! ## Users -/

section Users

variable {users : UserTable} {id id' : ℤ} {f : User → User} {keeps : ∀ user, (f user).id = user.id}

theorem mem_update {user : User} (h : user ∈ (users.update id f keeps).rows) :
    (∃ old ∈ users.rows, old.id = id ∧ f old = user) ∨ (user ∈ users.rows ∧ (user.id ≠ id ∨ user.deleted = true)) := by
  rcases Table.mem_updateWhere.mp h with ⟨old, hold, hsel, rfl⟩ | ⟨hold, hnot⟩
  · rw [Bool.and_eq_true, decide_eq_true_eq] at hsel
    exact .inl ⟨old, hold, hsel.1, rfl⟩
  · rw [Bool.and_eq_false_iff, decide_eq_false_iff_not, Bool.not_eq_false'] at hnot
    exact .inr ⟨hold, hnot⟩

theorem first_update (hdeleted : ∀ user, (f user).deleted = user.deleted) :
    (users.update id f keeps).first id' = if id' = id then (users.first id').map f else users.first id' := by
  unfold UserTable.first UserTable.update Table.updateWhere
  dsimp only
  induction users.rows with
  | nil => simp
  | cons user rows ih =>
    rw [List.map_cons, List.find?_cons, List.find?_cons, ih]
    by_cases hsel : (decide (user.id = id) && !user.deleted) = true
    · rw [if_pos hsel, keeps, hdeleted]
      rw [Bool.and_eq_true, decide_eq_true_eq, Bool.not_eq_true'] at hsel
      obtain ⟨rfl, hlive⟩ := hsel
      by_cases hid : id' = user.id
      · simp [hid, hlive]
      · have hne : user.id ≠ id' := fun e => hid e.symm
        simp [hid, hne]
    · rw [if_neg hsel]
      by_cases hid : id' = id
      · subst hid
        have hfalse : (decide (user.id = id') && !user.deleted) = false := by simpa using hsel
        rw [hfalse]
      · rw [if_neg hid, if_neg hid]

theorem first_setEmail (email : String) :
    (users.setEmail id email).first id' =
      if id' = id then (users.first id').map fun user => { user with email } else users.first id' :=
  first_update fun _ => rfl

theorem first_setAccount (status authVersion : ℤ) :
    (users.setAccount id status authVersion).first id' =
      if id' = id then (users.first id').map fun user => { user with status, authVersion } else users.first id' :=
  first_update fun _ => rfl

end Users

/-! ## One call -/

section Calls

variable {db : BindingDatabase} {identity : AuthSessionIdentity} {token email newCode oldCode : String} {now : ℤ}

/-- What a flow has been found to be once it is locked. -/
structure Locked (lib : EmailLibrary) (db : BindingDatabase) (identity : AuthSessionIdentity) (token : String) (now : ℤ)
    (flow : EmailBindingFlow) (state : EmailBindingState) : Prop where
  mem : flow ∈ db.flows.rows
  hash : flow.tokenHash = lib.authFlowTokenHash token
  fresh : flow.consumedAt = none
  inTime : now < flow.expiresAt
  payload : flow.payload = some state
  complete : state.complete lib identity = true
  session : validateAuthSessionWithTx db identity now = .ok ()
  address : ∃ user, db.users.first identity.userID = some user ∧ normalizeEmail lib user.email = state.currentEmail ∧
    state.currentEmail ≠ state.email
  attempts : state.failedAttempts < emailBindingMaxAttempts

theorem lockEmailBindingWithTx_ok {flow : EmailBindingFlow} {state : EmailBindingState}
    (h : lockEmailBindingWithTx lib db identity token now = .ok (flow, state)) :
    Locked lib db identity token now flow state := by
  unfold lockEmailBindingWithTx at h
  split at h
  · cases h
  rename_i found hfind
  split at h
  · cases h
  rename_i hfresh
  split at h
  · cases h
  rename_i htime
  split at h
  · cases h
  rename_i st hpayload
  obtain ⟨_, hvalid, h⟩ := except_bind_ok h
  split at h
  · cases h
  rename_i hattempts
  cases h
  unfold validateEmailBindingAccountWithTx at hvalid
  split at hvalid
  · cases hvalid
  rename_i hcomplete
  obtain ⟨_, hsession, hvalid⟩ := except_bind_ok hvalid
  split at hvalid
  · cases hvalid
  rename_i user huser
  split at hvalid
  · cases hvalid
  rename_i haddress
  simp only [not_or, not_not] at haddress
  exact {
    mem := List.mem_of_find?_eq_some hfind
    hash := (applyAuthFlowMatch_iff.mp (List.find?_some hfind)).1
    fresh := not_not.mp hfresh
    inTime := not_not.mp htime
    payload := hpayload
    complete := not_not.mp hcomplete
    session := hsession
    address := ⟨user, huser, haddress⟩
    attempts := not_le.mp hattempts }

theorem resendEmailBinding_ok {newCodeHash oldCodeHash : String} {flow : EmailBindingFlow} {state : EmailBindingState}
    {db' : BindingDatabase}
    (h : resendEmailBinding lib db identity token newCodeHash oldCodeHash now = .ok (flow, state, db')) :
    ∃ old, Locked lib db identity token now flow old ∧ state = old.resend newCodeHash oldCodeHash now ∧
      db' = { db with flows := setPayload db.flows flow.id state } := by
  obtain ⟨⟨flow', old⟩, hlock, h⟩ := except_bind_ok h
  dsimp only at h
  split at h
  · cases h
  split at h
  · cases h
  cases h
  exact ⟨old, lockEmailBindingWithTx_ok hlock, rfl, rfl⟩

/-- A submission that was committed: the codes were wrong and counted, or they were right and the address is free. -/
theorem completeEmailBinding_ok {submission : Submission}
    (h : completeEmailBinding lib db identity token email newCode oldCode now = .ok submission) :
    Locked lib db identity token now submission.flow submission.state ∧ submission.state.email = email ∧
      ((submission.state.accepts lib newCode oldCode = false ∧ submission.error ≠ none ∧
          submission.db = { db with flows := setPayload db.flows submission.flow.id submission.state.fail }) ∨
        (submission.state.accepts lib newCode oldCode = true ∧ submission.error = none ∧
          ensureEmailAvailableWithTx lib db.users submission.state.email identity.userID = .ok () ∧
          submission.db = { db with
            users := db.users.setEmail identity.userID submission.state.email
            flows := setConsumed db.flows submission.flow.id now })) := by
  unfold completeEmailBinding at h
  split at h
  · cases h
  obtain ⟨⟨flow, state⟩, hlock, h⟩ := except_bind_ok h
  dsimp only at h
  split at h
  · cases h
  rename_i hemail
  split at h
  · rename_i hwrong
    cases h
    exact ⟨lockEmailBindingWithTx_ok hlock, not_not.mp hemail, .inl ⟨by simpa using hwrong, by simp, rfl⟩⟩
  · rename_i hright
    obtain ⟨_, hfree, h⟩ := except_bind_ok h
    cases h
    exact ⟨lockEmailBindingWithTx_ok hlock, not_not.mp hemail, .inr ⟨not_not.mp hright, rfl, hfree, rfl⟩⟩

/-- An address that is free is stored for no other user in a form that the database finds. -/
theorem ensureEmailAvailableWithTx_ok {users : UserTable} {id : ℤ}
    (h : ensureEmailAvailableWithTx lib users email id = .ok ()) (hne : normalizeEmail lib email ≠ "") {user : User}
    (huser : user ∈ users.rows) (hlower : lib.lower user.email = normalizeEmail lib email) : user.id = id := by
  unfold ensureEmailAvailableWithTx at h
  dsimp only at h
  rw [if_neg hne] at h
  split at h
  · cases h
  rename_i hany
  by_contra hid
  refine hany (List.any_eq_true.mpr ⟨user, huser, ?_⟩)
  simp [hlower, hid]

end Calls

/-! ## What is kept -/

theorem mem_setPayload {flows : AuthFlowTable EmailBindingState} {id : ℕ} {state : EmailBindingState}
    {row : EmailBindingFlow} :
    row ∈ (setPayload flows id state).rows ↔
      (∃ old ∈ flows.rows, old.id = id ∧ { old with payload := some state } = row) ∨
        (row ∈ flows.rows ∧ row.id ≠ id) := by
  refine Table.mem_updateWhere.trans ?_
  simp only [decide_eq_true_eq, decide_eq_false_iff_not, ne_eq]

theorem mem_setConsumed {flows : AuthFlowTable EmailBindingState} {id : ℕ} {now : ℤ} {row : EmailBindingFlow} :
    row ∈ (setConsumed flows id now).rows ↔
      (∃ old ∈ flows.rows, old.id = id ∧ old.consume now = row) ∨ (row ∈ flows.rows ∧ row.id ≠ id) := by
  refine AuthFlowTable.mem_consume.trans ?_
  simp only [decide_eq_true_eq, decide_eq_false_iff_not, ne_eq]

/-- The wrong submissions that were evaluated for a flow. -/
def BindingSystem.wrong (s : BindingSystem) (flow : ℕ) : ℕ :=
  s.evaluated.countP fun e => decide (e.flow = flow) && !e.completed

/-- The flows that were completed. -/
def BindingSystem.completed (s : BindingSystem) : List ℕ := (s.evaluated.filter Evaluated.completed).map Evaluated.flow

/-- The flow of the row was made with this state, but for the codes and the counter. -/
def MadeFor (db : BindingDatabase) (id : ℕ) (state : EmailBindingState) : Prop :=
  ∃ row ∈ db.flows.rows, row.id = id ∧ ∃ made, row.payload = some made ∧
    state.authorization = made.authorization ∧ state.currentEmail = made.currentEmail ∧ state.email = made.email

/-- What every run from the tables `db` keeps. -/
structure Kept (db : BindingDatabase) (s : BindingSystem) : Prop where
  sent : ∀ row ∈ s.flows.rows, ∀ state, row.payload = some state →
    s.sent row.id = some (state.newCodeHash, state.oldCodeHash)
  made : ∀ row ∈ s.flows.rows, ∀ state, row.payload = some state → MadeFor db row.id state
  counted : ∀ row ∈ s.flows.rows, ∀ state, row.payload = some state → s.wrong row.id ≤ state.failedAttempts
  bounded : ∀ flow, s.wrong flow ≤ emailBindingMaxAttempts
  once : s.completed.Nodup
  closed : ∀ flow ∈ s.completed, ∀ row ∈ s.flows.rows, row.id = flow → row.consumedAt ≠ none

/-- The tables at the start; the hashes that were sent last are the ones in the rows. -/
def BindingSystem.start (db : BindingDatabase) : BindingSystem where
  toBindingDatabase := db
  sent := fun id => (Table.find AuthFlow.id id db.flows.rows).bind fun row =>
    row.payload.map fun state => (state.newCodeHash, state.oldCodeHash)

theorem Kept.start (db : BindingDatabase) : Kept db (BindingSystem.start db) where
  sent := by
    intro row hrow state hpayload
    show (Table.find AuthFlow.id row.id db.flows.rows).bind _ = _
    rw [Table.find_of_mem db.flows.nodup_id hrow, Option.bind_some, hpayload]
    rfl
  made := fun row hrow state hpayload => ⟨row, hrow, rfl, state, hpayload, rfl, rfl, rfl⟩
  counted := fun _ _ _ _ => Nat.zero_le _
  bounded := fun _ => Nat.zero_le _
  once := List.nodup_nil
  closed := fun _ h => absurd h List.not_mem_nil

section Steps

variable {db : BindingDatabase} {s : BindingSystem}

variable {identity : AuthSessionIdentity} {flow : EmailBindingFlow} {state : EmailBindingState}

theorem Kept.resend (h : Kept db s) {token newCodeHash oldCodeHash : String} {now : ℤ} {old : EmailBindingState}
    (hlock : Locked lib s.toBindingDatabase identity token now flow old) : Kept db { s with
      flows := setPayload s.flows flow.id (old.resend newCodeHash oldCodeHash now)
      sent := Function.update s.sent flow.id (some (newCodeHash, oldCodeHash)) } where
  sent := by
    intro row hrow state hpayload
    rcases mem_setPayload.mp hrow with ⟨row₀, -, hid, rfl⟩ | ⟨hold, hid⟩
    · cases hpayload
      show Function.update s.sent flow.id _ row₀.id = _
      rw [hid, Function.update_self]
      rfl
    · show Function.update s.sent flow.id _ row.id = _
      rw [Function.update_of_ne hid]
      exact h.sent row hold state hpayload
  made := by
    intro row hrow state hpayload
    rcases mem_setPayload.mp hrow with ⟨row₀, -, hid, rfl⟩ | ⟨hold, -⟩
    · cases hpayload
      show MadeFor db row₀.id _
      rw [hid]
      exact h.made flow hlock.mem old hlock.payload
    · exact h.made row hold state hpayload
  counted := by
    intro row hrow state hpayload
    rcases mem_setPayload.mp hrow with ⟨row₀, -, hid, rfl⟩ | ⟨hold, -⟩
    · cases hpayload
      show s.wrong row₀.id ≤ _
      rw [hid]
      exact h.counted flow hlock.mem old hlock.payload
    · exact h.counted row hold state hpayload
  bounded := h.bounded
  once := h.once
  closed := by
    intro id hid row hrow hrowId
    rcases mem_setPayload.mp hrow with ⟨row₀, hold, -, rfl⟩ | ⟨hold, -⟩
    · exact h.closed id hid row₀ hold hrowId
    · exact h.closed id hid row hold hrowId

theorem wrong_cons (s : BindingSystem) (db' : BindingDatabase) (e : Evaluated) (flow : ℕ) :
    ({ s with toBindingDatabase := db', evaluated := e :: s.evaluated } : BindingSystem).wrong flow =
      s.wrong flow + if e.flow = flow ∧ e.completed = false then 1 else 0 := by
  simp only [BindingSystem.wrong, List.countP_cons, Bool.and_eq_true, decide_eq_true_eq, Bool.not_eq_true']

theorem Kept.wrong (h : Kept db s) {token : String} {now : ℤ}
    (hlock : Locked lib s.toBindingDatabase identity token now flow state) {e : Evaluated} (hflow : e.flow = flow.id)
    (hwrong : e.completed = false) : Kept db { s with
      flows := setPayload s.flows flow.id state.fail
      evaluated := e :: s.evaluated } := by
  have hcount : s.wrong flow.id ≤ state.failedAttempts := h.counted flow hlock.mem state hlock.payload
  have hcompleted : ({ s with flows := setPayload s.flows flow.id state.fail, evaluated := e :: s.evaluated } :
      BindingSystem).completed = s.completed := by
    simp [BindingSystem.completed, hwrong]
  constructor
  · intro row hrow st hpayload
    rcases mem_setPayload.mp hrow with ⟨row₀, -, hid, rfl⟩ | ⟨hold, -⟩
    · cases hpayload
      show s.sent row₀.id = _
      rw [hid]
      exact h.sent flow hlock.mem state hlock.payload
    · exact h.sent row hold st hpayload
  · intro row hrow st hpayload
    rcases mem_setPayload.mp hrow with ⟨row₀, -, hid, rfl⟩ | ⟨hold, -⟩
    · cases hpayload
      show MadeFor db row₀.id _
      rw [hid]
      exact h.made flow hlock.mem state hlock.payload
    · exact h.made row hold st hpayload
  · intro row hrow st hpayload
    rw [wrong_cons]
    rcases mem_setPayload.mp hrow with ⟨row₀, -, hid, rfl⟩ | ⟨hold, hid⟩
    · cases hpayload
      rw [if_pos ⟨hflow.trans hid.symm, hwrong⟩]
      show s.wrong row₀.id + 1 ≤ state.failedAttempts + 1
      rw [hid]
      exact Nat.succ_le_succ hcount
    · rw [if_neg fun hsame => hid (hsame.1.symm.trans hflow), Nat.add_zero]
      exact h.counted row hold st hpayload
  · intro id
    rw [wrong_cons]
    split
    · rename_i hsame
      rw [← hsame.1, hflow]
      exact Nat.succ_le_of_lt (hcount.trans_lt hlock.attempts)
    · exact h.bounded id
  · rw [hcompleted]
    exact h.once
  · rw [hcompleted]
    intro id hid row hrow hrowId
    rcases mem_setPayload.mp hrow with ⟨row₀, hold, -, rfl⟩ | ⟨hold, -⟩
    · exact h.closed id hid row₀ hold hrowId
    · exact h.closed id hid row hold hrowId

theorem Kept.not_completed (h : Kept db s) {token : String} {now : ℤ}
    (hlock : Locked lib s.toBindingDatabase identity token now flow state) : flow.id ∉ s.completed :=
  fun hmem => h.closed flow.id hmem flow hlock.mem rfl hlock.fresh

theorem Kept.complete (h : Kept db s) {token : String} {now : ℤ}
    (hlock : Locked lib s.toBindingDatabase identity token now flow state) {e : Evaluated} (hflow : e.flow = flow.id)
    (hright : e.completed = true) (users : UserTable) : Kept db { s with
      users
      flows := setConsumed s.flows flow.id now
      evaluated := e :: s.evaluated } := by
  have hcompleted : ({ s with users, flows := setConsumed s.flows flow.id now, evaluated := e :: s.evaluated } :
      BindingSystem).completed = flow.id :: s.completed := by
    simp [BindingSystem.completed, hright, hflow]
  have hwrong : ∀ id, ({ s with users, flows := setConsumed s.flows flow.id now, evaluated := e :: s.evaluated } :
      BindingSystem).wrong id = s.wrong id := by
    intro id
    rw [wrong_cons, if_neg (by simp [hright]), Nat.add_zero]
  -- Payloads stay.
  have hrows : ∀ row ∈ (setConsumed s.flows flow.id now).rows, ∃ old ∈ s.flows.rows, old.id = row.id ∧
      old.payload = row.payload ∧ (row.consumedAt = none → old.consumedAt = none ∧ row.id ≠ flow.id) := by
    intro row hrow
    rcases mem_setConsumed.mp hrow with ⟨old, hold, -, rfl⟩ | ⟨hold, hid⟩
    · exact ⟨old, hold, rfl, rfl, fun hnone => absurd hnone (Option.some_ne_none _)⟩
    · exact ⟨row, hold, rfl, rfl, fun hnone => ⟨hnone, hid⟩⟩
  constructor
  · intro row hrow st hpayload
    obtain ⟨old, hold, hid, hsame, -⟩ := hrows row hrow
    rw [← hid]
    exact h.sent old hold st (hsame.trans hpayload)
  · intro row hrow st hpayload
    obtain ⟨old, hold, hid, hsame, -⟩ := hrows row hrow
    rw [← hid]
    exact h.made old hold st (hsame.trans hpayload)
  · intro row hrow st hpayload
    obtain ⟨old, hold, hid, hsame, -⟩ := hrows row hrow
    rw [hwrong, ← hid]
    exact h.counted old hold st (hsame.trans hpayload)
  · intro id
    rw [hwrong]
    exact h.bounded id
  · rw [hcompleted]
    exact List.nodup_cons.mpr ⟨h.not_completed hlock, h.once⟩
  · rw [hcompleted]
    intro id hid row hrow hrowId hnone
    obtain ⟨old, hold, holdId, -, hfresh⟩ := hrows row hrow
    rcases List.mem_cons.mp hid with rfl | hid
    · exact (hfresh hnone).2 hrowId
    · exact h.closed id hid old hold (holdId.trans hrowId) (hfresh hnone).1

theorem Kept.step (h : Kept db s) (a : BindingAction) : Kept db (bindingStep lib s a) := by
  cases a with
  | resend identity token newCodeHash oldCodeHash now =>
    simp only [bindingStep]
    split
    · rename_i flow state db' hok
      obtain ⟨old, hlock, rfl, rfl⟩ := resendEmailBinding_ok hok
      exact h.resend hlock
    · exact h
  | complete identity token email newCode oldCode now =>
    simp only [bindingStep]
    split
    · rename_i submission hok
      obtain ⟨hlock, -, ⟨-, herror, hdb⟩ | ⟨-, herror, -, hdb⟩⟩ := completeEmailBinding_ok hok
      · rw [hdb]
        exact h.wrong hlock rfl (by simpa [Option.isNone_eq_false_iff, Option.isSome_iff_ne_none] using herror)
      · rw [hdb]
        exact h.complete hlock rfl (by rw [herror]; rfl) _
    · exact h
  | bind userID email =>
    simp only [bindingStep]
    split
    · rename_i db' hok
      obtain ⟨_, -, hok⟩ := except_bind_ok hok
      split at hok
      · cases hok
      · cases hok
        split
        · exact h
        · exact ⟨h.sent, h.made, h.counted, h.bounded, h.once, h.closed⟩
    · exact h
  | account userID status authVersion => exact ⟨h.sent, h.made, h.counted, h.bounded, h.once, h.closed⟩
  | session sessions => exact ⟨h.sent, h.made, h.counted, h.bounded, h.once, h.closed⟩

end Steps

/-! ## Addresses -/

/-- No two users hold one address. -/
def Distinct (lib : EmailLibrary) (users : UserTable) : Prop :=
  ∀ u ∈ users.rows, ∀ v ∈ users.rows, normalizeEmail lib u.email ≠ "" →
    normalizeEmail lib u.email = normalizeEmail lib v.email → u.id = v.id

/-- The database finds every stored address that has the normal form of the new one. -/
def Found (lib : EmailLibrary) (users : UserTable) (email : String) : Prop :=
  ∀ user ∈ users.rows, normalizeEmail lib user.email = normalizeEmail lib email →
    lib.lower user.email = normalizeEmail lib email

/-- What an action needs for addresses to stay apart. -/
def Findable (lib : EmailLibrary) (s : BindingSystem) : BindingAction → Prop
  | .complete _ _ email _ _ _ => Found lib s.users email
  | .bind _ email => Found lib s.users (normalizeEmail lib email)
  | _ => True

theorem Distinct.setEmail {users : UserTable} (h : Distinct lib users) {id : ℤ} {email : String}
    (hfree : ensureEmailAvailableWithTx lib users email id = .ok ()) (hfound : Found lib users email) :
    Distinct lib (users.setEmail id email) := by
  -- Another user with the address would have been found.
  have hother : ∀ user ∈ users.rows, user.id ≠ id → normalizeEmail lib email ≠ "" →
      normalizeEmail lib user.email ≠ normalizeEmail lib email := fun user huser hid hne hsame =>
    hid (ensureEmailAvailableWithTx_ok hfree hne huser (hfound user huser hsame))
  intro u hu v hv hne hsame
  rcases mem_update hu with ⟨u₀, -, hu₀, rfl⟩ | ⟨hu, -⟩ <;>
    rcases mem_update hv with ⟨v₀, -, hv₀, rfl⟩ | ⟨hv, -⟩
  · exact hu₀.trans hv₀.symm
  · by_contra hid
    exact hother v hv (fun e => hid (hu₀.trans e.symm)) hne hsame.symm
  · by_contra hid
    exact hother u hu (fun e => hid (e.trans hv₀.symm)) (hsame ▸ hne) hsame
  · exact h u hu v hv hne hsame

theorem Distinct.step {s : BindingSystem} {a : BindingAction} (h : Distinct lib s.users)
    (hfound : Findable lib s a) : Distinct lib (bindingStep lib s a).users := by
  cases a with
  | resend identity token newCodeHash oldCodeHash now =>
    simp only [bindingStep]
    split
    · rename_i hok
      obtain ⟨old, -, -, rfl⟩ := resendEmailBinding_ok hok
      exact h
    · exact h
  | complete identity token email newCode oldCode now =>
    simp only [bindingStep]
    split
    · rename_i submission hok
      obtain ⟨-, hemail, ⟨-, -, hdb⟩ | ⟨-, -, hfree, hdb⟩⟩ := completeEmailBinding_ok hok
      · rw [hdb]
        exact h
      · rw [hdb]
        exact h.setEmail hfree (by rw [hemail]; exact hfound)
    · exact h
  | bind userID email =>
    simp only [bindingStep]
    split
    · rename_i db' hok
      obtain ⟨_, hfree, hok⟩ := except_bind_ok hok
      split at hok
      · cases hok
      · cases hok
        split
        · exact h
        · exact h.setEmail hfree hfound
    · exact h
  | account userID status authVersion =>
    intro u hu v hv hne hsame
    have hold : ∀ w ∈ (s.users.setAccount userID status authVersion).rows, ∃ w₀ ∈ s.users.rows,
        w₀.id = w.id ∧ w₀.email = w.email := by
      intro w hw
      rcases mem_update hw with ⟨w₀, hw₀, -, rfl⟩ | ⟨hw, -⟩
      · exact ⟨w₀, hw₀, rfl, rfl⟩
      · exact ⟨w, hw, rfl, rfl⟩
    obtain ⟨u₀, hu₀, huid, hue⟩ := hold u hu
    obtain ⟨v₀, hv₀, hvid, hve⟩ := hold v hv
    rw [← huid, ← hvid]
    exact h u₀ hu₀ v₀ hv₀ (by rwa [hue]) (by rw [hue, hve, hsame])
  | session sessions => exact h

instance (users : UserTable) : Decidable (Distinct lib users) :=
  inferInstanceAs (Decidable (∀ u ∈ users.rows, ∀ v ∈ users.rows, normalizeEmail lib u.email ≠ "" →
    normalizeEmail lib u.email = normalizeEmail lib v.email → u.id = v.id))

instance (users : UserTable) (email : String) : Decidable (Found lib users email) :=
  inferInstanceAs (Decidable (∀ user ∈ users.rows, normalizeEmail lib user.email = normalizeEmail lib email →
    lib.lower user.email = normalizeEmail lib email))

instance (s : BindingSystem) (a : BindingAction) : Decidable (Findable lib s a) :=
  match a with
  | .complete _ _ email _ _ _ => inferInstanceAs (Decidable (Found lib s.users email))
  | .bind _ email => inferInstanceAs (Decidable (Found lib s.users (normalizeEmail lib email)))
  | .resend .. | .account .. | .session _ => .isTrue trivial

/-- The address of a user. -/
def BindingSystem.emailOf (s : BindingSystem) (id : ℤ) : Option String := (s.users.first id).map User.email

/-- The action is a completion by the user that succeeds. -/
def Completes (lib : EmailLibrary) (s : BindingSystem) (id : ℤ) : BindingAction → Prop
  | .complete identity token email newCode oldCode now => identity.userID = id ∧ ∃ submission,
      completeEmailBinding lib s.toBindingDatabase identity token email newCode oldCode now = .ok submission ∧
        submission.error = none
  | _ => False

/-- Whether the action is a transaction that binds an address to the user elsewhere. -/
def BindingAction.Binds (id : ℤ) : BindingAction → Prop
  | .bind userID _ => userID = id
  | _ => False

/-- The address of a user changes exactly when a completion succeeds. -/
theorem emailOf_step_ne_iff {s : BindingSystem} {a : BindingAction} {id : ℤ} (hbind : ¬a.Binds id) :
    (bindingStep lib s a).emailOf id ≠ s.emailOf id ↔ Completes lib s id a := by
  cases a with
  | resend identity token newCodeHash oldCodeHash now =>
    refine iff_of_false (not_not.mpr ?_) False.elim
    simp only [bindingStep]
    split
    · rename_i hok
      obtain ⟨old, -, -, rfl⟩ := resendEmailBinding_ok hok
      rfl
    · rfl
  | complete identity token email newCode oldCode now =>
    simp only [bindingStep, Completes]
    split
    · rename_i submission hok
      obtain ⟨hlock, -, ⟨-, herror, hdb⟩ | ⟨-, herror, -, hdb⟩⟩ := completeEmailBinding_ok hok
      · refine iff_of_false (not_not.mpr ?_) ?_
        · simp only [BindingSystem.emailOf, hdb]
        · rintro ⟨-, submission', hok', herror'⟩
          cases hok.symm.trans hok'
          exact herror herror'
      · obtain ⟨user, huser, haddress, hne⟩ := hlock.address
        simp only [BindingSystem.emailOf, hdb, first_setEmail]
        by_cases hid : id = identity.userID
        · refine iff_of_true ?_ ⟨hid.symm, submission, hok, herror⟩
          rw [if_pos hid, hid, huser]
          intro hsame
          have hemail : submission.state.email = user.email := Option.some.inj hsame
          have hnormal : submission.state.email = normalizeEmail lib submission.state.email := by
            have hcomplete := hlock.complete
            simp only [EmailBindingState.complete, Bool.and_eq_true, decide_eq_true_eq] at hcomplete
            exact hcomplete.1.2
          exact hne (haddress.symm.trans ((congrArg _ hemail.symm).trans hnormal.symm))
        · refine iff_of_false (not_not.mpr (by rw [if_neg hid])) fun h => hid h.1.symm
    · rename_i e hrefused
      refine iff_of_false (not_not.mpr rfl) ?_
      rintro ⟨-, submission, hok, -⟩
      rw [hrefused] at hok
      cases hok
  | bind userID email =>
    refine iff_of_false (not_not.mpr ?_) False.elim
    simp only [bindingStep]
    split
    · rename_i db' hok
      obtain ⟨_, -, hok⟩ := except_bind_ok hok
      split at hok
      · cases hok
      · cases hok
        split
        · rfl
        · simp only [BindingSystem.emailOf, first_setEmail]
          rw [if_neg fun e => hbind e.symm]
    · rfl
  | account userID status authVersion =>
    refine iff_of_false (not_not.mpr ?_) False.elim
    simp only [bindingStep, BindingSystem.emailOf, first_setAccount]
    split
    · rw [Option.map_map]
      rfl
    · rfl
  | session sessions => exact iff_of_false (not_not.mpr rfl) False.elim

/-! ## Every run -/

/-- What holds of the calls at a state that a run from the tables `db` reaches. -/
structure Guarded (lib : EmailLibrary) (db : BindingDatabase) (s : BindingSystem) : Prop where
  attempts : ∀ flow, s.wrong flow ≤ emailBindingMaxAttempts
  once : s.completed.Nodup
  evaluated : ∀ identity token email newCode oldCode now submission,
    completeEmailBinding lib s.toBindingDatabase identity token email newCode oldCode now = .ok submission →
      s.wrong submission.flow.id < emailBindingMaxAttempts ∧ submission.flow.id ∉ s.completed
  right : ∀ identity token email newCode oldCode now submission,
    completeEmailBinding lib s.toBindingDatabase identity token email newCode oldCode now = .ok submission →
      submission.error = none →
        submission.state.accepts lib newCode oldCode = true ∧
        s.sent submission.flow.id = some (submission.state.newCodeHash, submission.state.oldCodeHash) ∧
        submission.state.authorization.map AuthFlowAuthorization.identity = some identity ∧
        validateAuthSessionWithTx s.toBindingDatabase identity now = .ok () ∧
        MadeFor db submission.flow.id submission.state ∧
        (s.emailOf identity.userID).map (normalizeEmail lib) = some submission.state.currentEmail
  wrong : ∀ identity token email newCode oldCode now submission,
    completeEmailBinding lib s.toBindingDatabase identity token email newCode oldCode now = .ok submission →
      submission.error ≠ none →
        submission.db = { s.toBindingDatabase with
          flows := setPayload s.flows submission.flow.id submission.state.fail }
  refusedCompletion : ∀ identity token email newCode oldCode now e,
    completeEmailBinding lib s.toBindingDatabase identity token email newCode oldCode now = .error e →
      bindingStep lib s (.complete identity token email newCode oldCode now) = s
  refusedResend : ∀ identity token newCodeHash oldCodeHash now e,
    resendEmailBinding lib s.toBindingDatabase identity token newCodeHash oldCodeHash now = .error e →
      bindingStep lib s (.resend identity token newCodeHash oldCodeHash now) = s
  address : ∀ a id, ¬a.Binds id → ((bindingStep lib s a).emailOf id ≠ s.emailOf id ↔ Completes lib s id a)

theorem EmailBindingState.identity_of_complete {state : EmailBindingState} {identity : AuthSessionIdentity}
    (h : state.complete lib identity = true) :
    state.authorization.map AuthFlowAuthorization.identity = some identity := by
  simp only [EmailBindingState.complete, Bool.and_eq_true] at h
  obtain ⟨⟨⟨hauthorization, -⟩, -⟩, -⟩ := h
  cases hstate : state.authorization with
  | none => rw [hstate] at hauthorization; cases hauthorization
  | some authorization =>
    simp only [hstate, Bool.and_eq_true, decide_eq_true_eq] at hauthorization
    exact congrArg some hauthorization.1.1.2

theorem Kept.guarded {db : BindingDatabase} {s : BindingSystem} (h : Kept db s) : Guarded lib db s where
  attempts := h.bounded
  once := h.once
  evaluated := by
    intro identity token email newCode oldCode now submission hok
    obtain ⟨hlock, -, -⟩ := completeEmailBinding_ok hok
    exact ⟨(h.counted _ hlock.mem _ hlock.payload).trans_lt hlock.attempts, h.not_completed hlock⟩
  right := by
    intro identity token email newCode oldCode now submission hok hnone
    obtain ⟨hlock, -, ⟨-, herror, -⟩ | ⟨haccepts, -, -, -⟩⟩ := completeEmailBinding_ok hok
    · exact absurd hnone herror
    · obtain ⟨user, huser, haddress, -⟩ := hlock.address
      refine ⟨haccepts, h.sent _ hlock.mem _ hlock.payload, EmailBindingState.identity_of_complete hlock.complete,
        hlock.session, h.made _ hlock.mem _ hlock.payload, ?_⟩
      rw [BindingSystem.emailOf, huser, Option.map_some, Option.map_some, haddress]
  wrong := by
    intro identity token email newCode oldCode now submission hok herror
    obtain ⟨-, -, ⟨-, -, hdb⟩ | ⟨-, hnone, -, -⟩⟩ := completeEmailBinding_ok hok
    · exact hdb
    · exact absurd hnone herror
  refusedCompletion := by
    intro identity token email newCode oldCode now e herror
    simp only [bindingStep, herror]
  refusedResend := by
    intro identity token newCodeHash oldCodeHash now e herror
    simp only [bindingStep, herror]
  address := fun _ _ hbind => emailOf_step_ne_iff hbind

/-- **Email bindings.** In every run whose completions and bindings find the stored addresses: wrong submissions are
bounded, a completion needs the codes sent last, the session and the address of the flow, an address changes by a
completion only and once per flow, failing calls change the counter only, and addresses that were distinct stay so. -/
theorem email_bindings_guarded (lib : EmailLibrary) (db : BindingDatabase) (actions : List BindingAction)
    (hfound : Along (bindingStep lib) (Findable lib) (BindingSystem.start db) actions) :
    Guarded lib db (run (bindingStep lib) (BindingSystem.start db) actions) ∧
      (Distinct lib db.users → Distinct lib (run (bindingStep lib) (BindingSystem.start db) actions).users) := by
  constructor
  · have hkept : Kept db (run (bindingStep lib) (BindingSystem.start db) actions) :=
      run_invariant (fun _ a h => h.step a) (Kept.start db) actions
    exact hkept.guarded
  · intro hdistinct
    exact run_invariant_along (I := fun s : BindingSystem => Distinct lib s.users) (fun _ _ h ha => h.step ha) hdistinct
      hfound

/-- A library that hashes nothing and folds the letters of ASCII. -/
def plainLibrary : EmailLibrary where
  authFlowTokenHash := id
  toLower := fun s => String.ofList (s.toList.map Char.toLower)
  lower := fun s => String.ofList (s.toList.map Char.toLower)
  validatePasswordAndHash := fun code hash => code = hash

/-- Two users; the second is about to bind `new@x.io`. -/
def twoUsers (first : String) : BindingDatabase where
  flows := {
    rows := [{
      id := 1
      tokenHash := "t"
      purpose := authFlowPurposeEmailBinding
      userId := 2
      sessionId := "s"
      payload := some {
        authorization := some ⟨⟨2, "s", 1, 1⟩, 5, "account.binding.bind", "h", "password"⟩
        currentEmail := "old@x.io"
        email := "new@x.io"
        newCodeHash := "123456" }
      expiresAt := 100 }]
    nextId := 2
    nodup_hash := by decide
    nodup_id := by decide
    id_lt := by decide }
  users := {
    rows := [{ id := 1, email := first }, { id := 2, email := "old@x.io" }]
    nodup_id := by simp }
  sessions := [{ sid := "s", userID := 2, version := 1, userAuthVersion := 1, status := "active", expiresAt := 100 }]

/-- A wrong submission and a right one. -/
def twoSubmissions : List BindingAction :=
  [.complete ⟨2, "s", 1, 1⟩ "t" "new@x.io" "000000" "" 1, .complete ⟨2, "s", 1, 1⟩ "t" "new@x.io" "123456" "" 2]

theorem email_bindings_guarded_twoUsers :
    Guarded plainLibrary (twoUsers "Me@x.io")
        (run (bindingStep plainLibrary) (BindingSystem.start (twoUsers "Me@x.io")) twoSubmissions) ∧
      (Distinct plainLibrary (twoUsers "Me@x.io").users → Distinct plainLibrary
        (run (bindingStep plainLibrary) (BindingSystem.start (twoUsers "Me@x.io")) twoSubmissions).users) :=
  email_bindings_guarded plainLibrary (twoUsers "Me@x.io") twoSubmissions (by decide +kernel)

/-- An address stored with a blank in front is not found, and two users hold it. -/
theorem blank_address_bound_twice :
    Distinct plainLibrary (twoUsers " new@x.io").users ∧
      ¬Distinct plainLibrary
        (run (bindingStep plainLibrary) (BindingSystem.start (twoUsers " new@x.io")) twoSubmissions).users := by
  decide +kernel

end Vancine.AuthFlows
