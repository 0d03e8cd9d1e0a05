import Mathlib.Algebra.Order.Group.Multiset
import Vancine.BatchUpdate.Updater
import Vancine.Lib.ListSum

/-!
# Nothing is lost between the maps and the database

A measure of entries with values in a commutative monoid is summed over all places where a delta can be:
the maps, what the flushes have taken and not yet written, the statements, and the updates that were skipped
because they add nothing. No step of a flush changes such a sum, whatever the measure. Taken at the sums of
the entries this says that the amounts are right, and taken at the numbers of the calls that every call is
in exactly one place.
-/

namespace Vancine.BatchUpdate

open Lib

/-! ## Saturation -/

theorem addSaturated_toInt (old value : Int64) :
    (addSaturated old value).toInt = max (-2 ^ 63) (min (2 ^ 63 - 1) (old.toInt + value.toInt)) := by
  have hold := old.toInt_lt
  have hold' := old.le_toInt
  have hvalue := value.toInt_lt
  have hvalue' := value.le_toInt
  have hzero : (0 : Int64).toInt = 0 := rfl
  have hsum := Int64.toInt_add old value
  rw [Int.bmod_def] at hsum
  unfold addSaturated
  simp only [Int64.lt_iff_toInt_lt, hzero]
  split_ifs
  · rw [Int64.toInt_maxValue]
    omega
  · rw [Int64.toInt_minValue]
    omega
  · omega

/-! ## Measures -/

/-- The loop that writes a type. -/
def BatchUpdateType.loop : BatchUpdateType → Loop
  | .tokenQuota => .token
  | .channelUsedQuota => .channel
  | _ => .user

/-- The loops that come after this one. -/
def Loop.later : Loop → List Loop
  | .token => [.channel, .user]
  | .channel => [.user]
  | .user => []

section Measure

variable {M : Type*} [AddCancelCommMonoid M] (m : Entry → M) (type : BatchUpdateType) (id : ℤ)

/-- What a statement adds to one column of one row. -/
def Write.part : Write → M
  | .token id' quota => if type = .tokenQuota ∧ id' = id then m quota else 0
  | .channel id' quota => if type = .channelUsedQuota ∧ id' = id then m quota else 0
  | .user id' quota usedQuota requestCount =>
    if id' = id then
      match type with
      | .userQuota => m quota
      | .usedQuota => m usedQuota
      | .requestCount => m requestCount
      | _ => 0
    else 0

/-- What a flush has taken and not yet written. -/
def Flush.part : Flush → M
  | .checking _ => 0
  | .taking _ taken => m ((taken type).get id)
  | .writing taken loop keys =>
    if type.loop ∈ loop.later ∨ (type.loop = loop ∧ id ∈ keys) then m ((taken type).get id) else 0
  | .finished => 0

def pending (s : State) : M := m ((s.stores type).get id) + (s.flushes.map (Flush.part m type id)).sum

def written (s : State) : M := (s.writes.map (Write.part m type id)).sum

def skipped (s : State) : M := (s.skipped.map (Write.part m type id)).sum

def total (s : State) : M := pending m type id s + written m type id s + skipped m type id s

/-- A flush holds nothing of a type that it has still to take, and no key twice. -/
def Flush.WellFormed : Flush → Prop
  | .taking left taken => left.Nodup ∧ ∀ type ∈ left, taken type = ∅
  | .writing _ _ keys => keys.Nodup
  | _ => True

def State.WellFormed (s : State) : Prop := ∀ flush ∈ s.flushes, flush.WellFormed

variable {m type id}

@[simp] theorem Store.get_empty : Store.get ∅ id = .zero := rfl

/-- The statement for a key adds what was taken for it, in each of its columns. -/
theorem Loop.part_write (loop : Loop) (taken : Stores) (key : ℤ) : (loop.write taken key).part m type id =
      if type.loop = loop ∧ key = id then m ((taken type).get id) else 0 := by
  by_cases hkey : key = id
  · subst hkey
    cases loop <;> cases type <;> simp [Loop.write, Write.part, BatchUpdateType.loop]
  · cases loop <;> simp [Loop.write, Write.part, hkey]

theorem Loop.get_of_notMem {taken : Stores} (h : id ∉ type.loop.keys taken) : (taken type).get id = .zero := by
  have hkeys : id ∉ (taken type).keys := by
    intro hmem
    refine h ?_
    cases type <;> simp [BatchUpdateType.loop, Loop.keys, hmem]
  have hlookup : (taken type).lookup id = none := by
    rw [AList.lookup_eq_none, AList.mem_keys]
    exact hkeys
  unfold Store.get
  rw [hlookup]
  rfl

theorem Loop.nodup_keys (taken : Stores) (loop : Loop) : (loop.keys taken).Nodup := by
  cases loop with
  | token => exact AList.keys_nodup _
  | channel => exact AList.keys_nodup _
  | user => exact (List.Nodup.union _ (AList.keys_nodup _)).union _

/-! ## Steps of a flush -/

theorem Flush.part_enter (hm : m .zero = 0) (taken : Stores) (loop : Loop) :
    (Flush.writing taken loop (loop.keys taken)).part m type id =
      if type.loop = loop ∨ type.loop ∈ loop.later then m ((taken type).get id) else 0 := by
  unfold Flush.part
  by_cases hloop : type.loop = loop
  · by_cases hmem : id ∈ loop.keys taken
    · simp [hloop, hmem]
    · have hget : (taken type).get id = .zero := Loop.get_of_notMem (hloop ▸ hmem)
      simp [hget, hm]
  · simp [hloop]

variable {s : State}

theorem flushStep_wellFormed {key : ℤ} {flush : Flush} (h : flush.WellFormed) :
    (flushStep key s flush).2.WellFormed := by
  unfold flushStep
  split
  · trivial
  · split_ifs
    · trivial
    · exact ⟨by decide, fun _ _ => rfl⟩
  · exact Loop.nodup_keys _ _
  · rename_i type left taken
    obtain ⟨hnodup, hempty⟩ := h
    rw [List.nodup_cons] at hnodup
    refine ⟨hnodup.2, ?_⟩
    intro type' hmem
    have hne : type' ≠ type := fun heq => hnodup.1 (heq ▸ hmem)
    rw [Function.update_of_ne hne]
    exact hempty type' (List.mem_cons_of_mem _ hmem)
  · split
    · exact Loop.nodup_keys _ _
    · trivial
  · have hnodup : (List.Nodup _) := h
    split_ifs
    · exact hnodup.erase _
    · exact hnodup
  · trivial

/-- Writing a key moves what was taken for it to a statement. -/
theorem Flush.part_erase {taken : Stores} {loop : Loop} {keys : List ℤ} {key : ℤ} (hnodup : keys.Nodup)
    (hkey : key ∈ keys) : (Flush.writing taken loop keys).part m type id =
      (Flush.writing taken loop (keys.erase key)).part m type id + (loop.write taken key).part m type id := by
  rw [Loop.part_write]
  unfold Flush.part
  dsimp only
  have hlater : type.loop ∈ loop.later → type.loop ≠ loop := by
    cases loop <;> cases type <;> decide
  have hmem : id ∈ keys.erase key ↔ id ≠ key ∧ id ∈ keys := hnodup.mem_erase_iff
  by_cases hloop : type.loop = loop
  · have hnot : type.loop ∉ loop.later := fun h => hlater h hloop
    by_cases hid : key = id
    · subst hid
      have hgone : ¬(type.loop ∈ loop.later ∨ (type.loop = loop ∧ key ∈ keys.erase key)) := by
        simp [hnot, hmem]
      rw [if_pos (Or.inr ⟨hloop, hkey⟩), if_neg hgone, if_pos ⟨hloop, rfl⟩, zero_add]
    · have hid' : id ≠ key := Ne.symm hid
      simp [hid, hid', hmem]
  · simp [hloop]

theorem execute_stores (write : Write) (s : State) : (execute write s).stores = s.stores := by
  unfold execute
  split_ifs <;> rfl

theorem execute_total (write : Write) (s : State) :
    written m type id (execute write s) + skipped m type id (execute write s) =
      write.part m type id + (written m type id s + skipped m type id s) := by
  unfold execute written skipped
  split_ifs
  · rw [List.map_cons, List.sum_cons]
    exact add_left_comm _ _ _
  · rw [List.map_cons, List.sum_cons]
    exact add_assoc _ _ _

theorem flushStep_total (hm : m .zero = 0) (key : ℤ) (s : State) {flush : Flush} (h : flush.WellFormed) :
    m (((flushStep key s flush).1.stores type).get id) + (flushStep key s flush).2.part m type id +
        (written m type id (flushStep key s flush).1 + skipped m type id (flushStep key s flush).1) =
      m ((s.stores type).get id) + flush.part m type id + (written m type id s + skipped m type id s) := by
  unfold flushStep
  split
  · rfl
  · split_ifs
    · rfl
    · simp [Flush.part, hm]
  · rename_i taken
    have hall : type.loop = .token ∨ type.loop ∈ Loop.later .token := by
      cases type <;> decide
    dsimp only
    rw [Flush.part_enter hm, if_pos hall]
    rfl
  · rename_i type' left taken
    by_cases htype : type = type'
    · subst htype
      have hempty : taken type = ∅ := h.2 type List.mem_cons_self
      simp [Flush.part, hempty, hm, written, skipped]
    · simp [Flush.part, Function.update_of_ne htype, written, skipped]
  · rename_i taken loop
    split
    · rename_i next hnext
      have hlater : (type.loop = next ∨ type.loop ∈ next.later) ↔ type.loop ∈ loop.later := by
        revert hnext
        cases loop <;> cases next <;> cases type <;> simp [Loop.next?, Loop.later, BatchUpdateType.loop]
      dsimp only
      rw [Flush.part_enter hm]
      simp [Flush.part, hlater]
    · rename_i hnext
      have hlater : type.loop ∉ loop.later := by
        revert hnext
        cases loop <;> cases type <;> simp [Loop.next?, Loop.later, BatchUpdateType.loop]
      simp [Flush.part, hlater]
  · rename_i taken loop first keys
    split_ifs with hkey
    · rw [Flush.part_erase h hkey]
      dsimp only
      rw [execute_stores, execute_total]
      abel
    · rfl
  · rfl

/-! ## Steps of the updater -/

theorem step_wellFormed {a : Action} (h : s.WellFormed) : (step s a).WellFormed := by
  cases a with
  | addNewRecord type id value => exact h
  | batchUpdate =>
    intro flush hflush
    rcases List.mem_append.mp hflush with hflush | hflush
    · exact h flush hflush
    · rw [List.mem_singleton.mp hflush]
      trivial
  | step i key =>
    cases hi : s.flushes[i]? with
    | none => simpa [step, hi] using h
    | some flush =>
      intro flush' hflush'
      simp only [step, hi] at hflush'
      rcases List.mem_or_eq_of_mem_set hflush' with hmem | rfl
      · exact h flush' hmem
      · exact flushStep_wellFormed (h flush (List.mem_of_getElem? hi))

theorem total_flush (hm : m .zero = 0) (h : s.WellFormed) (i : ℕ) (key : ℤ) :
    total m type id (step s (.step i key)) = total m type id s := by
  cases hi : s.flushes[i]? with
  | none => simp [step, hi]
  | some flush =>
    have hflush : m (((flushStep key s flush).1.stores type).get id) + (flushStep key s flush).2.part m type id +
        (written m type id (flushStep key s flush).1 + skipped m type id (flushStep key s flush).1) = _ :=
      flushStep_total hm key s (h flush (List.mem_of_getElem? hi))
    have hset : ((s.flushes.set i (flushStep key s flush).2).map (Flush.part m type id)).sum + _ = _ :=
      sum_map_set_add hi (flushStep key s flush).2
    have hstep : step s (.step i key) =
        { (flushStep key s flush).1 with flushes := s.flushes.set i (flushStep key s flush).2 } := by
      simp [step, hi]
    rw [hstep]
    -- what the flush itself holds is on both sides
    refine add_right_cancel (b := flush.part m type id) ?_
    calc
      _ = m (((flushStep key s flush).1.stores type).get id) +
          (((s.flushes.set i (flushStep key s flush).2).map (Flush.part m type id)).sum + flush.part m type id) +
          (written m type id (flushStep key s flush).1 + skipped m type id (flushStep key s flush).1) := by
        unfold total pending written skipped
        abel
      _ = (s.flushes.map (Flush.part m type id)).sum + (m (((flushStep key s flush).1.stores type).get id) +
          (flushStep key s flush).2.part m type id +
          (written m type id (flushStep key s flush).1 + skipped m type id (flushStep key s flush).1)) := by
        rw [hset]
        abel
      _ = _ := by
        rw [hflush]
        unfold total pending
        abel

theorem total_batchUpdate (s : State) : total m type id (step s .batchUpdate) = total m type id s := by
  simp [step, total, pending, written, skipped, Flush.part]

/-- The entry after a call, whether there was one before or not. -/
def Entry.add (old : Entry) (n : ℕ) (value : Int64) : Entry := ⟨addSaturated old.sum value, n :: old.records⟩

theorem addSaturated_zero (value : Int64) : addSaturated 0 value = value := by
  refine Int64.toInt_inj.mp ?_
  have hlt := value.toInt_lt
  have hle := value.le_toInt
  have hzero : (0 : Int64).toInt = 0 := rfl
  rw [addSaturated_toInt, hzero]
  omega

theorem addNewRecord_get (s : State) (type' : BatchUpdateType) (id' : ℤ) (value : Int64) :
    ((addNewRecord type' id' value s).stores type).get id =
      if type' = type ∧ id' = id then ((s.stores type).get id).add s.records.length value
      else (s.stores type).get id := by
  unfold addNewRecord
  dsimp only
  by_cases htype : type' = type
  · subst htype
    rw [Function.update_self]
    by_cases hid : id' = id
    · subst hid
      unfold Store.get
      rw [AList.lookup_insert, if_pos ⟨rfl, rfl⟩]
      cases (s.stores type').lookup id' with
      | none => simp [Entry.add, Entry.zero, addSaturated_zero]
      | some old => rfl
    · unfold Store.get
      rw [AList.lookup_insert_ne (Ne.symm hid), if_neg fun h => hid h.2]
  · rw [Function.update_of_ne (Ne.symm htype), if_neg fun h => htype h.1]

theorem total_addNewRecord {type' : BatchUpdateType} {id' : ℤ} {value : Int64} {d : M}
    (hd : m (((s.stores type').get id').add s.records.length value) = m ((s.stores type').get id') + d) :
    total m type id (step s (.addNewRecord type' id' value)) =
      total m type id s + if type' = type ∧ id' = id then d else 0 := by
  have hget : ((step s (.addNewRecord type' id' value)).stores type).get id = _ :=
    addNewRecord_get s type' id' value
  unfold total pending
  rw [hget]
  by_cases hkey : type' = type ∧ id' = id
  · obtain ⟨rfl, rfl⟩ := hkey
    simp only [and_self, if_true]
    rw [hd]
    show m ((s.stores type').get id') + d + (s.flushes.map _).sum + written m type' id' s + skipped m type' id' s = _
    abel
  · simp only [if_neg hkey, add_zero]
    rfl

end Measure

/-! ## Runs -/

/-- The amount of an entry. -/
def Entry.amount (entry : Entry) : ℤ := entry.sum.toInt

/-- The numbers of the calls in an entry. -/
def Entry.calls (entry : Entry) : Multiset ℕ := entry.records

def recorded (type : BatchUpdateType) (id : ℤ) (s : State) : ℤ :=
  ((s.records.filter fun r => r.type = type ∧ r.id = id).map fun r => r.value.toInt).sum

/-- The numbers of the calls for a type and an id. -/
def callNumbers (type : BatchUpdateType) (id : ℤ) (s : State) : Multiset ℕ :=
  (s.records.zipIdx.filter fun r => r.1.type = type ∧ r.1.id = id).map Prod.snd

/-- The pending sum stays in the range of an `int`. -/
def Fits (s : State) : Action → Prop
  | .addNewRecord type id value =>
    -2 ^ 63 ≤ ((s.stores type).get id).amount + value.toInt ∧
      ((s.stores type).get id).amount + value.toInt < 2 ^ 63
  | _ => True

instance (s : State) (a : Action) : Decidable (Fits s a) := by
  cases a <;> unfold Fits <;> infer_instance

theorem step_records (s : State) (a : Action) : (step s a).records = s.records ++ match a with
      | .addNewRecord type id value => [⟨type, id, value⟩]
      | _ => [] := by
  cases a with
  | addNewRecord type id value => rfl
  | batchUpdate => exact (List.append_nil _).symm
  | step i key =>
    have hflush (flush : Flush) : (flushStep key s flush).1.records = s.records := by
      unfold flushStep execute
      split <;> (try split_ifs) <;> (try split) <;> rfl
    cases hi : s.flushes[i]? with
    | none => simp [step, hi]
    | some flush => simp [step, hi, hflush]

section Runs

variable {type : BatchUpdateType} {id : ℤ}

theorem recorded_step (s : State) (a : Action) : recorded type id (step s a) = recorded type id s + match a with
      | .addNewRecord type' id' value => if type' = type ∧ id' = id then value.toInt else 0
      | _ => 0 := by
  unfold recorded
  rw [step_records]
  cases a with
  | addNewRecord type' id' value =>
    dsimp only
    rw [List.filter_append, List.map_append, List.sum_append]
    by_cases hkey : type' = type ∧ id' = id <;> simp [hkey]
  | batchUpdate => simp
  | step i key => simp

theorem callNumbers_step (s : State) (a : Action) :
    callNumbers type id (step s a) = callNumbers type id s + match a with
      | .addNewRecord type' id' _ => if type' = type ∧ id' = id then {s.records.length} else 0
      | _ => 0 := by
  unfold callNumbers
  rw [step_records]
  cases a with
  | addNewRecord type' id' value =>
    dsimp only
    rw [List.zipIdx_append, List.filter_append, List.map_append, ← Multiset.coe_add]
    by_cases hkey : type' = type ∧ id' = id <;> simp [hkey]
  | batchUpdate => simp
  | step i key => simp

theorem total_amount {as : List Action} (h : Along step Fits init as) :
    recorded type id (run step init as) = total Entry.amount type id (run step init as) := by
  have hinv : (run step init as).WellFormed ∧
      recorded type id (run step init as) = total Entry.amount type id (run step init as) := by
    refine run_invariant_along (I := fun s => s.WellFormed ∧ recorded type id s = total Entry.amount type id s)
      (P := Fits) ?_ ⟨?_, rfl⟩ h
    · rintro s a ⟨hwf, hsum⟩ hfits
      refine ⟨step_wellFormed hwf, ?_⟩
      rw [recorded_step, hsum]
      cases a with
      | addNewRecord type' id' value =>
        refine (total_addNewRecord ?_).symm
        unfold Fits Entry.amount at hfits
        unfold Entry.amount Entry.add
        dsimp only
        rw [addSaturated_toInt]
        omega
      | batchUpdate => rw [total_batchUpdate, add_zero]
      | step i key => rw [total_flush rfl hwf, add_zero]
    · exact fun flush hflush => nomatch hflush
  exact hinv.2

theorem total_calls (as : List Action) :
    callNumbers type id (run step init as) = total Entry.calls type id (run step init as) := by
  have hinv : (run step init as).WellFormed ∧
      callNumbers type id (run step init as) = total Entry.calls type id (run step init as) := by
    have hinit : callNumbers type id init = total Entry.calls type id init := rfl
    refine run_invariant (I := fun s => s.WellFormed ∧ callNumbers type id s = total Entry.calls type id s)
      ?_ ⟨?_, hinit⟩ as
    · rintro s a ⟨hwf, hsum⟩
      refine ⟨step_wellFormed hwf, ?_⟩
      rw [callNumbers_step, hsum]
      cases a with
      | addNewRecord type' id' value =>
        refine (total_addNewRecord ?_).symm
        unfold Entry.calls Entry.add
        dsimp only
        rw [← Multiset.cons_coe, add_comm, Multiset.singleton_add]
      | batchUpdate => rw [total_batchUpdate, add_zero]
      | step i key => rw [total_flush rfl hwf, add_zero]
    · exact fun flush hflush => nomatch hflush
  exact hinv.2

theorem mem_callNumbers {s : State} {n : ℕ} :
    n ∈ callNumbers type id s ↔ ∃ value, s.records[n]? = some ⟨type, id, value⟩ := by
  unfold callNumbers
  simp only [Multiset.mem_coe, List.mem_map, List.mem_filter, decide_eq_true_eq, Prod.exists,
    List.mk_mem_zipIdx_iff_getElem?]
  constructor
  · rintro ⟨r, k, ⟨hr, rfl, rfl⟩, rfl⟩
    exact ⟨r.value, hr⟩
  · rintro ⟨value, hvalue⟩
    exact ⟨_, n, ⟨hvalue, rfl, rfl⟩, rfl⟩

theorem nodup_callNumbers (s : State) : (callNumbers type id s).Nodup := by
  unfold callNumbers
  rw [Multiset.coe_nodup]
  have hall : (s.records.zipIdx.map Prod.snd).Nodup := by
    rw [List.zipIdx_map_snd]
    exact List.nodup_range'
  exact hall.sublist (List.filter_sublist.map _)

theorem skipped_isEmpty (as : List Action) : ∀ write ∈ (run step init as).skipped, write.isEmpty = true := by
  refine run_invariant (I := fun s : State => ∀ write ∈ s.skipped, write.isEmpty = true) ?_
    (List.forall_mem_nil _) as
  intro s a h
  cases a with
  | addNewRecord type id value => exact h
  | batchUpdate => exact h
  | step i key =>
    cases hi : s.flushes[i]? with
    | none => simpa [step, hi] using h
    | some flush =>
      intro write hwrite
      simp only [step, hi] at hwrite
      unfold flushStep at hwrite
      split at hwrite
      · exact h write hwrite
      · split_ifs at hwrite <;> exact h write hwrite
      · exact h write hwrite
      · exact h write hwrite
      · split at hwrite <;> exact h write hwrite
      · split_ifs at hwrite with hkey
        · unfold execute at hwrite
          split_ifs at hwrite with hempty
          · rcases List.mem_cons.mp hwrite with rfl | hwrite
            · exact hempty
            · exact h write hwrite
          · exact h write hwrite
        · exact h write hwrite
      · exact h write hwrite

theorem skipped_amount (as : List Action) : skipped Entry.amount type id (run step init as) = 0 := by
  refine List.sum_eq_zero ?_
  intro x hx
  obtain ⟨write, hwrite, rfl⟩ := List.mem_map.mp hx
  have hempty := skipped_isEmpty as write hwrite
  cases write with
  | token id' quota => cases hempty
  | channel id' quota => cases hempty
  | user id' quota usedQuota requestCount =>
    have hzero : (0 : Int64).toInt = 0 := rfl
    simp only [Write.isEmpty, Bool.and_eq_true, decide_eq_true_eq] at hempty
    unfold Write.part Entry.amount
    cases type <;> simp [hempty, hzero]

end Runs

/-- In every run, the deltas of a type and an id add up to what was written and what is pending, as long as
no pending sum leaves the range of an `int`; and every call of `addNewRecord` is in exactly one place, among
what is pending, in one statement, or in one update that was skipped since it adds nothing. -/
theorem batch_updater_loses_nothing (as : List Action) (type : BatchUpdateType) (id : ℤ) :
    (Along step Fits init as → recorded type id (run step init as) =
      written Entry.amount type id (run step init as) + pending Entry.amount type id (run step init as)) ∧
    (pending Entry.calls type id (run step init as) + written Entry.calls type id (run step init as) +
        skipped Entry.calls type id (run step init as)).Nodup ∧
    (∀ n, n ∈ pending Entry.calls type id (run step init as) + written Entry.calls type id (run step init as) +
        skipped Entry.calls type id (run step init as) ↔
      ∃ value, (run step init as).records[n]? = some ⟨type, id, value⟩) ∧
    ∀ write ∈ (run step init as).skipped, write.isEmpty = true := by
  have hcalls : pending Entry.calls type id (run step init as) +
      written Entry.calls type id (run step init as) + skipped Entry.calls type id (run step init as) =
      callNumbers type id (run step init as) := (total_calls as).symm
  rw [hcalls]
  refine ⟨?_, nodup_callNumbers _, fun n => mem_callNumbers, skipped_isEmpty as⟩
  intro hfits
  rw [total_amount hfits]
  unfold total
  rw [skipped_amount, add_zero, add_comm]

/-- A flush between two deltas of a user, and one delta after the maps were taken. -/
theorem batch_updater_flushed : ∃ as, Along step Fits init as ∧
    recorded .userQuota 7 (run step init as) = 11 ∧ written Entry.amount .userQuota 7 (run step init as) = 8 ∧
    recorded .userQuota 7 (run step init as) = written Entry.amount .userQuota 7 (run step init as) +
      pending Entry.amount .userQuota 7 (run step init as) := by
  let as : List Action := [.addNewRecord .userQuota 7 3, .batchUpdate, .step 0 0,
    .addNewRecord .userQuota 7 5, .step 0 0, .addNewRecord .userQuota 7 3, .step 0 0, .step 0 0, .step 0 0,
    .step 0 0, .step 0 0, .step 0 0, .step 0 0, .step 0 7]
  have hfits : Along step Fits init as := by decide
  exact ⟨as, hfits, by decide, by decide, (batch_updater_loses_nothing as .userQuota 7).1 hfits⟩

/-- The largest delta and one more. -/
theorem saturated_delta_lost : ∃ as, recorded .userQuota 1 (run step init as) ≠
    written Entry.amount .userQuota 1 (run step init as) + pending Entry.amount .userQuota 1 (run step init as) :=
  ⟨[.addNewRecord .userQuota 1 Int64.maxValue, .addNewRecord .userQuota 1 1], by decide⟩

end Vancine.BatchUpdate
