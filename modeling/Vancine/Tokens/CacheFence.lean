import Mathlib.Tactic.Linarith
import Vancine.Tokens.Cache

/-!
# The cache answers with the row as it is

A mutation raises the fence before it writes, so a snapshot from before the write can only be published while the fence
is up, if the writes and the readers together take less time than the fence lives. Hence the hash agrees with the row
at every moment, but for the balance and the last use.
-/

namespace Vancine.Tokens.Cache

open Lib

/-! ## Hashes -/

/-- All the fields of a snapshot are there. -/
def Complete (hash : Hash) : Prop := ∀ field, (hash field).isSome

theorem TokenRow.hash_complete (row : TokenRow) : Complete row.hash := fun field => by cases field <;> rfl

/-- A row that was published comes back, with an empty list of addresses as none. -/
theorem decode_hash (row : TokenRow) : decode row.hash =
      { row with allowIps := if row.allowIps.getD "" = "" then none else some (row.allowIps.getD "") } := rfl

/-- What a hash says besides the balance and the last use. -/
def metadata (hash : Hash) : TokenRow := (decode hash).metadata

theorem metadata_hash_congr {row row' : TokenRow} (h : row.metadata = row'.metadata) :
    metadata row.hash = metadata row'.hash := by
  unfold metadata
  rw [decode_hash, decode_hash]
  simp only [TokenRow.metadata, TokenRow.mk.injEq, Token.mk.injEq] at h ⊢
  simp [h]

section Scripts

variable {hash : Option Hash} {h h' : Hash} {field : Field} {value : Value}

theorem update_complete (hh : Complete h) : Complete (Function.update h field (some value)) := by
  intro f
  by_cases hf : f = field
  · subst hf; simp
  · rw [Function.update_of_ne hf]; exact hh f

/-- The fields of the balance and of the last use. -/
def Field.IsCounter (field : Field) : Prop := field = .remainQuota ∨ field = .usedQuota ∨ field = .accessedTime

theorem metadata_update (hfield : field.IsCounter) : metadata (Function.update h field (some value)) = metadata h := by
  rcases hfield with rfl | rfl | rfl <;> rfl

/-- The writes of a quota script leave a complete hash complete, and its metadata as they are. -/
theorem moveQuota_some (remain accessedTime : ℤ) (hh : Complete h) :
    ∃ h', moveQuota remain accessedTime (some h) = some h' ∧ Complete h' ∧ metadata h' = metadata h := by
  refine ⟨_, rfl, update_complete (update_complete (update_complete hh)), ?_⟩
  exact (metadata_update (.inr (.inr rfl))).trans
    ((metadata_update (.inr (.inl rfl))).trans (metadata_update (.inl rfl)))

theorem quotaReady_none (id : ℤ) : quotaReady id none = false := by
  simp [quotaReady, fields]

/-- What a quota script may do to the hash: nothing, or a change of the counters of one that is there. -/
structure Counts (hash hash' : Option Hash) : Prop where
  none : hash = none → hash' = none
  some : ∀ h, hash = some h → Complete h → ∃ h', hash' = some h' ∧ Complete h' ∧ metadata h' = metadata h

theorem Counts.refl (hash : Option Hash) : Counts hash hash := ⟨id, fun h hh hc => ⟨h, hh, hc, rfl⟩⟩

theorem delta_counts (delta id accessedTime : ℤ) (hash : Option Hash) :
    Counts hash (tokenQuotaDeltaScript delta id accessedTime hash) := by
  unfold tokenQuotaDeltaScript
  split
  · next hready =>
    refine ⟨fun hnone => ?_, fun h hh hc => hh ▸ moveQuota_some _ _ hc⟩
    rw [hnone, quotaReady_none] at hready
    cases hready
  · exact .refl hash

theorem reserve_counts (amount id accessedTime : ℤ) (hash : Option Hash) :
    Counts hash (tokenQuotaReserveScript amount id accessedTime hash) := by
  unfold tokenQuotaReserveScript
  split
  · next hready =>
    split
    · exact .refl hash
    · refine ⟨fun hnone => ?_, fun h hh hc => hh ▸ moveQuota_some _ _ hc⟩
      rw [hnone, quotaReady_none] at hready
      cases hready
  · exact .refl hash

end Scripts

/-! ## The invariant -/

/-- The hash is complete and agrees with the row. -/
def Agrees (s : State) (h : Hash) : Prop :=
  Complete h ∧ ∃ row, s.row = some row ∧ metadata h = metadata row.hash

/-- The fence outlives every snapshot that is not the row any more, and every mutation that may still write. -/
structure Invariant (writeTime readGap : ℚ) (s : State) : Prop where
  hash : ∀ h, s.hash = some h → Agrees s h
  fence : ∀ expires, s.fence = some expires → expires ≤ s.now + tokenCacheFenceSeconds
  raised : ∀ m ∈ s.mutating, ∃ expires, s.fence = some expires ∧ m.raisedAt + tokenCacheFenceSeconds ≤ expires
  dropped : ∀ m ∈ s.mutating, m.dropped = true → s.hash = none ∨ m.raisedAt + writeTime < s.now
  read : ∀ r ∈ s.reading, r.readAt ≤ s.now
  current : ∀ r ∈ s.reading, s.row.map TokenRow.metadata = some r.snapshot.metadata ∨
    ∃ expires, s.fence = some expires ∧ r.readAt + readGap < expires

/-- A mutation writes within `writeTime` of its fence, and a reader publishes within `readGap` of its read. -/
def Timely (writeTime readGap : ℚ) (s : State) : Action → Prop
  | .write place => ∀ m, s.mutating[place]? = some m → s.now ≤ m.raisedAt + writeTime
  | .publish place => ∀ r, s.reading[place]? = some r → s.now ≤ r.readAt + readGap
  | _ => True

theorem invariant_start (writeTime readGap now : ℚ) (row : Option TokenRow) :
    Invariant writeTime readGap (start now row) := by
  constructor <;> simp [start]

section Steps

variable {writeTime readGap : ℚ} {s : State}

/-- A step that changes at most the hash, and only as a quota script does. -/
theorem invariant_counts {hash' : Option Hash} (hcounts : Counts s.hash hash') (h : Invariant writeTime readGap s) :
    Invariant writeTime readGap { s with hash := hash' } := by
  refine ⟨fun h' hh' => ?_, h.fence, h.raised, fun m hm hd => ?_, h.read, h.current⟩
  · have hh' : hash' = some h' := hh'
    cases hhash : s.hash with
    | none => rw [hcounts.none hhash] at hh'; cases hh'
    | some old =>
      obtain ⟨hc, row, hrow, hmeta⟩ := h.hash old hhash
      obtain ⟨new, hnew, hcnew, hmnew⟩ := hcounts.some old hhash hc
      obtain rfl : new = h' := Option.some.inj (hnew.symm.trans hh')
      exact ⟨hcnew, row, hrow, hmnew.trans hmeta⟩
  · exact (h.dropped m hm hd).imp_left hcounts.none

theorem invariant_dropHash {mutating : List Mutating} (h : Invariant writeTime readGap s)
    (hraised : ∀ m ∈ mutating, ∃ expires, s.fence = some expires ∧ m.raisedAt + tokenCacheFenceSeconds ≤ expires) :
    Invariant writeTime readGap { s with hash := none, mutating } :=
  ⟨fun _ hh => (by cases hh), h.fence, hraised, fun _ _ _ => .inl rfl, h.read, h.current⟩

theorem wait_invariant (seconds : ℚ) (h : Invariant writeTime readGap s) :
    Invariant writeTime readGap (step s (.wait seconds)) := by
  have hlater : s.now ≤ s.now + max seconds 0 := le_add_of_nonneg_right (le_max_right _ _)
  refine ⟨h.hash, fun e he => ?_, h.raised, fun m hm hd => ?_, fun r hr => ?_, h.current⟩
  · exact (h.fence e he).trans (add_le_add_left hlater _)
  · exact (h.dropped m hm hd).imp_right fun hlate => hlate.trans_le hlater
  · exact (h.read r hr).trans hlater

/-- A fence that is raised expires no sooner than the one before. -/
theorem raise_invariant (mutation : Mutation) (h : Invariant writeTime readGap s) :
    Invariant writeTime readGap (step s (.raise mutation)) := by
  refine ⟨h.hash, fun e he => ?_, fun m hm => ?_, fun m hm hd => ?_, h.read, fun r hr => ?_⟩
  · exact (Option.some.inj he).symm.le
  · refine ⟨_, rfl, ?_⟩
    rcases List.mem_append.mp hm with hm | hm
    · obtain ⟨e, he, hle⟩ := h.raised m hm
      exact hle.trans (h.fence e he)
    · obtain rfl := List.mem_singleton.mp hm
      exact le_rfl
  · rcases List.mem_append.mp hm with hm | hm
    · exact h.dropped m hm hd
    · obtain rfl := List.mem_singleton.mp hm
      cases hd
  · refine (h.current r hr).imp_right ?_
    rintro ⟨e, he, hlt⟩
    exact ⟨_, rfl, hlt.trans_le (h.fence e he)⟩

theorem drop_invariant (place : ℕ) (h : Invariant writeTime readGap s) :
    Invariant writeTime readGap (dropHash place s) := by
  unfold dropHash
  split
  · exact h
  · next m hm =>
    refine invariant_dropHash h fun m' hm' => ?_
    rcases List.mem_or_eq_of_mem_set hm' with hm' | rfl
    · exact h.raised m' hm'
    · exact h.raised m (List.mem_of_getElem? hm)

theorem abandon_invariant (place : ℕ) (h : Invariant writeTime readGap s) :
    Invariant writeTime readGap (step s (.abandon place)) :=
  ⟨h.hash, h.fence, fun m hm => h.raised m (List.mem_of_mem_eraseIdx hm),
    fun m hm => h.dropped m (List.mem_of_mem_eraseIdx hm), h.read, h.current⟩

/-- The row is written while the hash is gone, and the fence outlives whoever has read the old row. -/
theorem write_invariant {place : ℕ} (hsum : writeTime + readGap < tokenCacheFenceSeconds)
    (htimely : Timely writeTime readGap s (.write place)) (h : Invariant writeTime readGap s) :
    Invariant writeTime readGap (writeRow place s) := by
  unfold writeRow
  cases hm : s.mutating[place]? with
  | none => exact h
  | some m =>
    show Invariant writeTime readGap (if m.dropped then _ else s)
    split
    · next hd =>
      have hmem : m ∈ s.mutating := List.mem_of_getElem? hm
      have hintime : s.now ≤ m.raisedAt + writeTime := htimely m hm
      have hgone : s.hash = none := (h.dropped m hmem hd).resolve_right (not_lt.mpr hintime)
      obtain ⟨e, he, hle⟩ := h.raised m hmem
      refine ⟨fun h' hh' => ?_, h.fence, fun m' hm' => h.raised m' (List.mem_of_mem_eraseIdx hm'),
        fun m' hm' => h.dropped m' (List.mem_of_mem_eraseIdx hm'), h.read, fun r hr => .inr ⟨e, he, ?_⟩⟩
      · rw [show s.hash = none from hgone] at hh'
        cases hh'
      · have hread : r.readAt ≤ s.now := h.read r hr
        linarith
    · exact h

theorem charge_invariant (remain accessedTime : ℤ) (h : Invariant writeTime readGap s) :
    Invariant writeTime readGap (step s (.charge remain accessedTime)) := by
  have hmeta : ∀ row : TokenRow, TokenRow.metadata
      { row with remainQuota := row.remainQuota + remain, usedQuota := row.usedQuota - remain, accessedTime } =
        row.metadata := fun _ => rfl
  refine ⟨fun h' hh' => ?_, h.fence, h.raised, h.dropped, h.read, fun r hr => ?_⟩
  · obtain ⟨hc, row, hrow, heq⟩ := h.hash h' hh'
    refine ⟨hc, _, by rw [step, hrow]; rfl, heq.trans ?_⟩
    exact (metadata_hash_congr (hmeta row)).symm
  · refine (h.current r hr).imp_left fun hcur => ?_
    show Option.map _ (Option.map _ s.row) = _
    rw [Option.map_map, ← hcur]
    exact congrFun (congrArg Option.map (funext hmeta)) s.row

theorem readRow_invariant (h : Invariant writeTime readGap s) : Invariant writeTime readGap (step s .readRow) := by
  have hnew : ∀ r ∈ (s.row.map fun row => ({ snapshot := row, readAt := s.now } : Reading)).toList,
      r.readAt = s.now ∧ s.row.map TokenRow.metadata = some r.snapshot.metadata := by
    intro r hr
    obtain ⟨row, hrow, rfl⟩ := Option.map_eq_some_iff.mp (Option.mem_toList.mp hr)
    exact ⟨rfl, congrArg _ hrow⟩
  refine ⟨h.hash, h.fence, h.raised, h.dropped, fun r hr => ?_, fun r hr => ?_⟩
  · rcases List.mem_append.mp hr with hr | hr
    · exact h.read r hr
    · exact (hnew r hr).1.le
  · rcases List.mem_append.mp hr with hr | hr
    · exact h.current r hr
    · exact .inl (hnew r hr).2

/-- A snapshot that is published without a fence is the row, and no mutation can still write in time. -/
theorem publish_invariant {place : ℕ} (hsum : writeTime + readGap < tokenCacheFenceSeconds)
    (htimely : Timely writeTime readGap s (.publish place)) (h : Invariant writeTime readGap s) :
    Invariant writeTime readGap (publish place s) := by
  unfold publish
  cases hr : s.reading[place]? with
  | none => exact h
  | some r =>
    have hread : ∀ r' ∈ s.reading.eraseIdx place, r' ∈ s.reading := fun _ => List.mem_of_mem_eraseIdx
    show Invariant writeTime readGap { s with
      hash := if s.fenced || s.hash.isSome then s.hash else some r.snapshot.hash
      reading := s.reading.eraseIdx place }
    split
    · exact ⟨h.hash, h.fence, h.raised, h.dropped, fun r' hr' => h.read r' (hread r' hr'),
        fun r' hr' => h.current r' (hread r' hr')⟩
    · next hopen =>
      have hintime : s.now ≤ r.readAt + readGap := htimely r hr
      have hmem : r ∈ s.reading := List.mem_of_getElem? hr
      have hexpired : ∀ e, s.fence = some e → e ≤ s.now := by
        intro e he
        by_contra hlt
        exact hopen (by simp [State.fenced, he, not_le.mp hlt])
      refine ⟨fun h' hh' => ?_, h.fence, h.raised, fun m hm _ => .inr ?_, fun r' hr' => h.read r' (hread r' hr'),
        fun r' hr' => h.current r' (hread r' hr')⟩
      · obtain rfl : r.snapshot.hash = h' := Option.some.inj hh'
        rcases h.current r hmem with hcur | ⟨e, he, hlt⟩
        · obtain ⟨row, hrow, heq⟩ := Option.map_eq_some_iff.mp hcur
          exact ⟨r.snapshot.hash_complete, row, hrow, (metadata_hash_congr heq).symm⟩
        · have hdown := hexpired e he
          linarith
      · obtain ⟨e, he, hle⟩ := h.raised m hm
        have hdown := hexpired e he
        have hearlier := h.read r hmem
        linarith

theorem step_invariant (hsum : writeTime + readGap < tokenCacheFenceSeconds) (s : State) (action : Action)
    (h : Invariant writeTime readGap s) (htimely : Timely writeTime readGap s action) :
    Invariant writeTime readGap (step s action) := by
  cases action with
  | wait seconds => exact wait_invariant seconds h
  | raise mutation => exact raise_invariant mutation h
  | drop place => exact drop_invariant place h
  | write place => exact write_invariant hsum htimely h
  | abandon place => exact abandon_invariant place h
  | charge remain accessedTime => exact charge_invariant remain accessedTime h
  | readRow => exact readRow_invariant h
  | publish place => exact publish_invariant hsum htimely h
  | reserve amount id accessedTime => exact invariant_counts (reserve_counts amount id accessedTime s.hash) h
  | applyDelta delta id accessedTime => exact invariant_counts (delta_counts delta id accessedTime s.hash) h
  | expire => exact invariant_dropHash h h.raised

end Steps

/-! ## Runs -/

/-- What a cached answer says of the row as it is now. -/
structure Answers (token row : TokenRow) : Prop where
  status : token.status = row.status
  expiredTime : token.expiredTime = row.expiredTime
  group : token.group = row.group
  autoGroups : token.autoGroups = row.autoGroups
  modelLimitsEnabled : token.modelLimitsEnabled = row.modelLimitsEnabled
  modelLimits : token.modelLimits = row.modelLimits
  unlimitedQuota : token.unlimitedQuota = row.unlimitedQuota

theorem answers_of_metadata {h : Hash} {row : TokenRow} (heq : metadata h = metadata row.hash) :
    Answers (decode h) row := by
  unfold metadata at heq
  rw [decode_hash] at heq
  simp only [TokenRow.metadata, TokenRow.mk.injEq, Token.mk.injEq] at heq
  constructor <;> simp [heq]

/-- A row, and a copy of it that switches the token off. -/
def sampleRow : TokenRow :=
  { id := 7, userId := 3, name := "n", status := .enabled, accessedTime := 0, expiredTime := -1, remainQuota := 10,
    unlimitedQuota := false, modelLimitsEnabled := false, modelLimits := "", allowIps := none, usedQuota := 0,
    group := "", crossGroupRetry := false, autoGroups := "", createdTime := 0 }

/-- A reader publishes, the token is switched off, and a second reader publishes after the fence. -/
def switchedOff : List Action :=
  [.readRow, .wait 2, .publish 0, .raise (.selectUpdate { sampleRow.toToken with status := .disabled }), .drop 0, .wait 3,
    .write 0, .wait 8, .readRow, .publish 0]

end Vancine.Tokens.Cache
