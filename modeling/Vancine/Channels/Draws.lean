import Vancine.Channels.Selection

/-!
# How many draws select a candidate

A draw is a number below the total weight. With the cache each channel is selected by as many draws as it weighs.
Without it the comparison is one off: the first ability has a draw too many, which the last one lacks.
-/

namespace Vancine.Channels

variable {β : Type} [DecidableEq β]

/-- The number of draws below `total` that select `candidate`. -/
def draws (select : ℕ → Option β) (total : ℕ) (candidate : β) : ℕ :=
  (List.range total).countP fun draw => select draw = some candidate

theorem draws_add (select : ℕ → Option β) (a b : ℕ) (candidate : β) :
    draws select (a + b) candidate = draws select a candidate + draws (fun draw => select (a + draw)) b candidate := by
  unfold draws
  rw [List.range_add, List.countP_append, List.countP_map]
  rfl

theorem draws_congr {select select' : ℕ → Option β} {total : ℕ} (h : ∀ draw < total, select draw = select' draw)
    (candidate : β) : draws select total candidate = draws select' total candidate := by
  refine List.countP_congr fun draw hdraw => ?_
  rw [h draw (List.mem_range.mp hdraw)]

theorem draws_const (a : Option β) (total : ℕ) (candidate : β) :
    draws (fun _ => a) total candidate = if a = some candidate then total else 0 := by
  unfold draws
  split_ifs with h
  · simp [h]
  · simp [h]

/-- Each time that a candidate is on the list, it has the draws that it weighs. -/
theorem draws_pick (weight : β → ℕ) (candidates : List β) (candidate : β) :
    draws (fun draw => pick weight draw candidates) (candidates.map weight).sum candidate =
      candidates.count candidate * weight candidate := by
  induction candidates with
  | nil => simp [draws]
  | cons first rest ih =>
    have hfirst : draws (fun draw => pick weight draw (first :: rest)) (weight first) candidate =
        if some first = some candidate then weight first else 0 := by
      rw [← draws_const]
      exact draws_congr (fun draw hdraw => if_pos hdraw) candidate
    have hrest : (fun draw => pick weight (weight first + draw) (first :: rest)) =
        fun draw => pick weight draw rest := by
      funext draw
      rw [pick, if_neg (by omega), Nat.add_sub_cancel_left]
    rw [List.map_cons, List.sum_cons, draws_add, hfirst, hrest, ih, List.count_cons]
    by_cases h : first = candidate
    · subst h
      simp [Nat.add_mul, Nat.add_comm]
    · simp [h]

open scoped Classical in
theorem draws_drawChannel (channels : List Channel) (channel : Channel) :
    draws (fun draw => (drawChannel draw channels).toOption.join) (channels.map (effectiveWeight channels)).sum
        channel = channels.count channel * effectiveWeight channels channel := by
  rw [← draws_pick]
  refine draws_congr (fun draw hdraw => ?_) channel
  unfold drawChannel
  simp only [Nat.mod_eq_of_lt hdraw]
  cases pick (effectiveWeight channels) draw channels <;> rfl

/-! ## Without the cache -/

/-- What an ability counts in the draw. -/
def Ability.drawWeight (ability : Ability) : ℕ := ability.weight + 10

variable {rest : List Ability} {draw : ℕ}

theorem pickAbility_first {ability : Ability} (h : draw ≤ ability.drawWeight) :
    pickAbility draw (ability :: rest) = some ability := if_pos h

theorem pickAbility_rest {ability : Ability} (h : ability.drawWeight < draw) :
    pickAbility draw (ability :: rest) = pickAbility (draw - ability.drawWeight) rest := if_neg (Nat.not_le.mpr h)

/-- The first of several abilities has a draw more than it weighs. -/
theorem draws_pickAbility_first {first second : Ability} (h : (first :: second :: rest).Nodup) :
    draws (fun draw => pickAbility draw (first :: second :: rest))
      ((first :: second :: rest).map Ability.drawWeight).sum first = first.drawWeight + 1 := by
  have hnot : first ∉ second :: rest := (List.nodup_cons.mp h).1
  obtain ⟨more, hmore⟩ : ∃ more, ((first :: second :: rest).map Ability.drawWeight).sum =
      first.drawWeight + 1 + more := by
    refine ⟨second.drawWeight - 1 + (rest.map Ability.drawWeight).sum, ?_⟩
    simp only [List.map_cons, List.sum_cons, Ability.drawWeight]
    omega
  have hlow : draws (fun draw => pickAbility draw (first :: second :: rest)) (first.drawWeight + 1) first =
      first.drawWeight + 1 := by
    rw [draws_congr (fun draw hdraw => pickAbility_first (Nat.le_of_lt_succ hdraw)), draws_const, if_pos rfl]
  have hhigh : draws (fun draw => pickAbility (first.drawWeight + 1 + draw) (first :: second :: rest)) more first =
      0 := by
    refine List.countP_eq_zero.mpr fun draw _ => ?_
    rw [decide_eq_true_eq]
    show ¬pickAbility (first.drawWeight + 1 + draw) (first :: second :: rest) = some first
    rw [pickAbility_rest (by omega)]
    exact fun hpick => hnot (mem_of_pickAbility hpick)
  rw [hmore, draws_add, hlow, hhigh, Nat.add_zero]

theorem draws_pickAbility_single (ability : Ability) :
    draws (fun draw => pickAbility draw [ability]) ([ability].map Ability.drawWeight).sum ability =
      ability.drawWeight := by
  rw [List.map_singleton, List.sum_singleton, draws_congr (fun draw hdraw => pickAbility_first hdraw.le), draws_const,
    if_pos rfl]

theorem pickAbility_isSome {abilities : List Ability} (hne : abilities ≠ [])
    (h : draw < (abilities.map Ability.drawWeight).sum) : (pickAbility draw abilities).isSome := by
  induction abilities generalizing draw with
  | nil => exact absurd rfl hne
  | cons first rest ih =>
    rw [List.map_cons, List.sum_cons] at h
    by_cases hdraw : draw ≤ first.drawWeight
    · rw [pickAbility_first hdraw]
      rfl
    · have hgt : first.drawWeight < draw := Nat.lt_of_not_le hdraw
      rw [pickAbility_rest hgt]
      refine ih (fun hnil => ?_) (by omega)
      rw [hnil] at h
      simp only [List.map_nil, List.sum_nil] at h
      omega

open scoped Classical in
/-- Both draws are exact: every draw selects a candidate, and a candidate is selected by as many draws as it counts. -/
structure DrawsExact (channels : List Channel) (abilities : List Ability) : Prop where
  channel : ∀ draw < (channels.map (effectiveWeight channels)).sum,
    ∃ channel ∈ channels, drawChannel draw channels = .ok (some channel)
  channelDraws : ∀ channel ∈ channels,
    draws (fun draw => (drawChannel draw channels).toOption.join) (channels.map (effectiveWeight channels)).sum
        channel =
      channels.count channel * effectiveWeight channels channel
  ability : ∀ draw < (abilities.map Ability.drawWeight).sum,
    ∃ ability ∈ abilities, pickAbility draw abilities = some ability
  abilityDraws : ∀ ability ∈ abilities,
    draws (fun draw => pickAbility draw abilities) (abilities.map Ability.drawWeight).sum ability = ability.drawWeight

/-- **The draws are exact** just when without the cache there is one candidate only. -/
theorem draws_exact_iff {channels : List Channel} {abilities : List Ability} (hchannels : channels ≠ [])
    (habilities : abilities ≠ []) (hnodup : abilities.Nodup) :
    DrawsExact channels abilities ↔ abilities.length = 1 := by
  constructor
  · intro h
    match abilities, habilities, hnodup with
    | [_], _, _ => rfl
    | first :: second :: rest, _, hnodup =>
      have hfirst := h.abilityDraws first List.mem_cons_self
      rw [draws_pickAbility_first hnodup] at hfirst
      omega
  · intro hlength
    obtain ⟨ability, rfl⟩ := List.length_eq_one_iff.mp hlength
    refine ⟨fun draw _ => ?_, fun channel _ => draws_drawChannel channels channel, fun draw hdraw => ?_, fun a ha => ?_⟩
    · obtain ⟨channel, hchannel, hdraw⟩ := drawChannel_ok hchannels draw
      exact ⟨channel, List.mem_of_mem_filter hchannel, hdraw⟩
    · obtain ⟨selected, hselected⟩ := Option.isSome_iff_exists.mp (pickAbility_isSome habilities hdraw)
      exact ⟨selected, mem_of_pickAbility hselected, hselected⟩
    · obtain rfl := List.mem_singleton.mp ha
      exact draws_pickAbility_single a

/-- An ability without a weight. -/
def lightAbility (channelId : ℤ) : Ability := ⟨[], [], channelId, true, none, 0⟩

theorem draws_exact_one : [lightAbility 1].length = 1 ∧ DrawsExact [{ id := 1 }] [lightAbility 1] :=
  ⟨rfl, (draws_exact_iff (List.cons_ne_nil _ _) (List.cons_ne_nil _ _) (List.nodup_singleton _)).mpr rfl⟩

/-- Two abilities without a weight: the first has eleven of the twenty draws. -/
theorem draws_eleven_to_nine :
    (draws (fun draw => pickAbility draw [lightAbility 1, lightAbility 2]) 20 (lightAbility 1) = 11 ∧
      draws (fun draw => pickAbility draw [lightAbility 1, lightAbility 2]) 20 (lightAbility 2) = 9) ∧
    ¬∀ (channels : List Channel) (abilities : List Ability), channels ≠ [] → abilities ≠ [] → abilities.Nodup →
      DrawsExact channels abilities := by
  have hdraws : draws (fun draw => pickAbility draw [lightAbility 1, lightAbility 2]) 20 (lightAbility 1) = 11 ∧
      draws (fun draw => pickAbility draw [lightAbility 1, lightAbility 2]) 20 (lightAbility 2) = 9 := by
    decide
  refine ⟨hdraws, fun h => ?_⟩
  have hexact := (h [{ id := 1 }] [lightAbility 1, lightAbility 2] (List.cons_ne_nil _ _) (List.cons_ne_nil _ _)
    (by decide)).abilityDraws (lightAbility 1) List.mem_cons_self
  exact absurd (hdraws.1.symm.trans hexact) (by decide)

end Vancine.Channels
