import Vancine.Tokens.Edits

/-!
# What edits do to the consumption of a token

Calls change the row by statements relative to it, so they keep the account of the token in any order. A write-back
writes `remain_quota` as its copy has it: the account is kept exactly when that is what the row has.
-/

namespace Vancine.Tokens

open Lib

/-- The quota left is the initial one less what was consumed, and its sum with the quota used is as at the start. -/
def Accounted (row : Token) (s : TokenState) : Prop :=
  s.row.remainQuota = row.remainQuota - s.consumed ∧
    s.row.remainQuota + s.row.usedQuota = row.remainQuota + row.usedQuota

instance (row : Token) (s : TokenState) : Decidable (Accounted row s) := by unfold Accounted; infer_instance

/-- No write-back goes through with a quota other than the one that the row has by then. -/
def WritesCurrent (s : TokenState) : TokenAction → Prop
  | .writeBack edit false => ∀ token ∈ s.edits[edit]?, token.remainQuota = s.row.remainQuota
  | _ => True

instance (s : TokenState) (a : TokenAction) : Decidable (WritesCurrent s a) := by
  unfold WritesCurrent; split <;> infer_instance

theorem accounted_start (row : Token) : Accounted row (.start row) := ⟨(sub_zero _).symm, rfl⟩

/-! ## Calls -/

section Calls

variable {row row' : Token} {fault unlimited : Bool} {now quota : ℤ}

/-- `row'` is `row` after `quota` was consumed. -/
def Consumes (quota : ℤ) (row row' : Token) : Prop :=
  row'.remainQuota = row.remainQuota - quota ∧ row'.usedQuota = row.usedQuota + quota

theorem consumes_consume (now quota : ℤ) (row : Token) : Consumes quota row (row.consume now quota) := ⟨rfl, rfl⟩

theorem consumes_zero (row : Token) : Consumes 0 row row := ⟨(sub_zero _).symm, (add_zero _).symm⟩

theorem increaseTokenQuota_consumes (h : increaseTokenQuota fault now quota row = .ok row') :
    Consumes (-quota) row row' := by
  unfold increaseTokenQuota at h
  split_ifs at h
  obtain rfl := Except.ok.inj h
  exact consumes_consume now (-quota) row

theorem decreaseTokenQuota_consumes (h : decreaseTokenQuota fault now quota row = .ok row') :
    Consumes quota row row' := by
  unfold decreaseTokenQuota at h
  split_ifs at h
  obtain rfl := Except.ok.inj h
  exact consumes_consume now quota row

theorem reserveTokenQuotaDB_consumes (h : reserveTokenQuotaDB fault now quota row = .ok (some row')) :
    Consumes quota row row' := by
  unfold reserveTokenQuotaDB at h
  split_ifs at h
  · obtain rfl := Option.some.inj (Except.ok.inj h)
    exact consumes_consume now quota row
  · exact absurd (Except.ok.inj h) (by simp)

theorem persistTokenQuotaDelta_consumes (h : persistTokenQuotaDelta fault now (-quota) row = .ok row') :
    Consumes quota row row' := by
  unfold persistTokenQuotaDelta at h
  split_ifs at h
  obtain rfl := Except.ok.inj h
  rw [neg_neg]
  exact consumes_consume now quota row

theorem map_some_eq_ok {result : Except TokenError Token} (h : result.map some = .ok (some row')) :
    result = .ok row' := by
  cases result with
  | error e => exact absurd h (by simp [Except.map])
  | ok row => exact congrArg Except.ok (Option.some.inj (Except.ok.inj h))

theorem tryReserveTokenQuota_consumes {cache : CacheQuotaResult}
    (h : tryReserveTokenQuota cache fault now quota unlimited row = .ok (some row')) : Consumes quota row row' := by
  unfold tryReserveTokenQuota at h
  split_ifs at h with hneg hzero hunlimited
  · obtain rfl := Option.some.inj (Except.ok.inj h)
    rw [hzero]
    exact consumes_zero row
  · exact decreaseTokenQuota_consumes (map_some_eq_ok h)
  · cases cache with
    | miss => exact reserveTokenQuotaDB_consumes h
    | insufficient => exact absurd (Except.ok.inj h) (by simp)
    | ok => exact persistTokenQuotaDelta_consumes (map_some_eq_ok h)

end Calls

/-! ## Steps -/

section Steps

variable {row : Token} {s : TokenState}

/-- A call keeps the account when the row that it leaves consumes what is counted. -/
theorem Accounted.charge {quota : ℤ} {result : Except TokenError (Option Token)} (h : Accounted row s)
    (hresult : ∀ row', result = .ok (some row') → Consumes quota s.row row') : Accounted row (s.charge quota result) := by
  unfold TokenState.charge
  split
  · rename_i row'
    obtain ⟨hremain, hused⟩ := hresult row' rfl
    obtain ⟨hleft, hsum⟩ := h
    constructor
    · show row'.remainQuota = row.remainQuota - (s.consumed + quota)
      omega
    · show row'.remainQuota + row'.usedQuota = row.remainQuota + row.usedQuota
      omega
  · exact h

theorem read_row (edit : Except TokenError Token) : (s.read edit).row = s.row := by cases edit <;> rfl

theorem read_consumed (edit : Except TokenError Token) : (s.read edit).consumed = s.consumed := by cases edit <;> rfl

theorem Accounted.read (h : Accounted row s) (edit : Except TokenError Token) : Accounted row (s.read edit) := by
  unfold Accounted
  rw [read_row, read_consumed]
  exact h

/-- A write-back keeps the account exactly when it writes the quota that the row has. -/
theorem accounted_writeBack (h : Accounted row s) (edit : ℕ) (fault : Bool) :
    Accounted row (s.writeBack edit fault) ↔ WritesCurrent s (.writeBack edit fault) := by
  unfold TokenState.writeBack
  cases hedit : s.edits[edit]? with
  | none => cases fault with
    | true => exact iff_of_true h trivial
    | false => exact iff_of_true h (by simp [WritesCurrent, hedit])
  | some token => cases fault with
    | true => exact iff_of_true h trivial
    | false =>
      obtain ⟨hleft, hsum⟩ := h
      simp only [WritesCurrent, hedit, Option.mem_some_iff, forall_eq']
      constructor
      · rintro ⟨hwritten, -⟩
        replace hwritten : token.remainQuota = row.remainQuota - s.consumed := hwritten
        omega
      · intro hcurrent
        constructor
        · show token.remainQuota = row.remainQuota - s.consumed
          omega
        · show token.remainQuota + s.row.usedQuota = row.remainQuota + row.usedQuota
          omega

theorem accounted_step (settings : TokenSettings) (h : Accounted row s) (a : TokenAction) :
    Accounted row (s.step settings a) ↔ WritesCurrent s a := by
  cases a with
  | readStatus now userId request => exact iff_of_true (h.read _) trivial
  | readLimits => exact iff_of_true (h.read _) trivial
  | writeBack edit fault => exact accounted_writeBack h edit fault
  | tryReserve cache fault now quota unlimited =>
    exact iff_of_true (h.charge fun _ => tryReserveTokenQuota_consumes) trivial
  | decrease fault now quota =>
    exact iff_of_true (h.charge fun _ hok => decreaseTokenQuota_consumes (map_some_eq_ok hok)) trivial
  | increase fault now quota =>
    exact iff_of_true (h.charge fun _ hok => increaseTokenQuota_consumes (map_some_eq_ok hok)) trivial

end Steps

/-! ## Runs -/

/-- The account of a token is kept in every state of a run exactly when every write-back writes the quota that the row
has. -/
theorem accounted_iff_writesCurrent (settings : TokenSettings) (row : Token) (as : List TokenAction) :
    (∀ pre, pre <+: as → Accounted row (run (TokenState.step settings) (.start row) pre)) ↔
      Along (TokenState.step settings) WritesCurrent (.start row) as :=
  run_forall_iff_along (I := fun _ => True) (J := Accounted row) (fun _ _ _ => trivial)
    (fun _ a _ h => accounted_step settings h a) trivial (accounted_start row) as

/-- A call between the read and the write-back of a status edit is lost: 40 of 100 were reserved, and the edit writes
100 again. -/
theorem statusEdit_loses_reservation :
    ∃ (settings : TokenSettings) (row : Token) (as : List TokenAction),
      ¬Accounted row (run (TokenState.step settings) (.start row) as) := by
  refine ⟨⟨1000, 10, none, fun _ => ""⟩,
    ⟨1, 7, "main", .enabled, 0, -1, 100, false, false, "", none, 0, "", false, ""⟩,
    [.readStatus 5 7 ⟨⟨1, 0, "", .disabled, 0, 0, 0, false, false, "", none, 0, "", false, ""⟩, none⟩,
      .tryReserve .miss false 6 40 false, .writeBack 0 false], ?_⟩
  decide

end Vancine.Tokens
