import Mathlib.Data.List.Nodup
import Vancine.RateLimit.Limiter

/-!
# An exact window

A run is any order of requests and sweeps. Beside the limiter it keeps all requests that were accepted. A request is
rejected exactly when the window of its key is full of these, as long as no window is longer than the time after which
an idle key is forgotten.
-/

namespace Vancine.RateLimit

open Lib Queue

/-! ## The keys -/

/-- The requests that the limiter still has for a key. -/
def Limiter.remembered (l : Limiter) (key : String) : List ℤ :=
  match l.store key with
  | none => []
  | some address => (l.entries address).requests.nodes

/-- The map and the list hold the same entries, the list is in the order of the last requests, and every queue is in
order. -/
structure WellKept (l : Limiter) (clock : ℤ) : Prop where
  nodup : l.lru.Nodup
  fresh : ∀ address ∈ l.lru, address < l.next
  store : ∀ key address, l.store key = some address ↔ address ∈ l.lru ∧ (l.entries address).key = key
  latestFirst : l.lru.Pairwise fun a b => (l.entries b).lastActive ≤ (l.entries a).lastActive
  active : ∀ address ∈ l.lru, (l.entries address).lastActive ≤ clock
  ordered : ∀ address ∈ l.lru, (l.entries address).requests.Ordered
  inTime : ∀ address ∈ l.lru, ∀ timestamp ∈ (l.entries address).requests.nodes,
    timestamp ≤ unix (l.entries address).lastActive

variable {l : Limiter} {clock now duration : ℤ} {key : String} {address : ℕ}

theorem unix_mono {a b : ℤ} (h : a ≤ b) : unix a ≤ unix b := Int.ediv_le_ediv (by decide) h

theorem recent_mono {a b timestamp : ℤ} (h : Recent b duration timestamp) (hle : a ≤ b) :
    Recent a duration timestamp := by
  unfold Recent at *
  omega

theorem filter_recent_filter {a b : ℤ} (hle : a ≤ b) (nodes : List ℤ) :
    (nodes.filter fun t => Recent a duration t).filter (fun t => Recent b duration t) =
      nodes.filter fun t => Recent b duration t := by
  rw [List.filter_filter]
  refine List.filter_congr fun timestamp _ => ?_
  by_cases h : Recent b duration timestamp
  · simp [h, recent_mono h hle]
  · simp [h]

namespace WellKept

theorem later (h : WellKept l clock) {clock' : ℤ} (hle : clock ≤ clock') : WellKept l clock' :=
  { h with active := fun a ha => (h.active a ha).trans hle }

/-- An entry, new or old, is put in front with the time and with a queue of its own requests. -/
theorem front (h : WellKept l clock) (hle : clock ≤ now) (address : ℕ) (entry : Entry) (store : String → Option ℕ)
    (next : ℕ) (hnext : ∀ a ∈ address :: l.lru, a < next) (hactive : entry.lastActive = now)
    (hordered : entry.requests.Ordered) (hinTime : ∀ timestamp ∈ entry.requests.nodes, timestamp ≤ unix now)
    (hkey : ∀ key, store key = some address ↔ entry.key = key)
    (hothers : ∀ key a, a ≠ address → (store key = some a ↔ l.store key = some a)) : WellKept { l with
      entries := Function.update l.entries address entry
      next := next
      store := store
      lru := address :: l.lru.erase address } now := by
  have hnot : address ∉ l.lru.erase address := h.nodup.not_mem_erase
  have hold : ∀ {a}, a ∈ l.lru.erase address → a ∈ l.lru ∧ Function.update l.entries address entry a = l.entries a :=
    fun {a} ha => ⟨List.mem_of_mem_erase ha, Function.update_of_ne (ne_of_mem_of_not_mem ha hnot) _ _⟩
  have hself : Function.update l.entries address entry address = entry := Function.update_self _ _ _
  refine ⟨List.nodup_cons.mpr ⟨hnot, h.nodup.erase _⟩, fun a ha => ?_, fun key a => ?_, ?_, fun a ha => ?_,
    fun a ha => ?_, fun a ha => ?_⟩
  · refine hnext a ?_
    rcases List.mem_cons.mp ha with rfl | ha
    · exact List.mem_cons_self
    · exact List.mem_cons_of_mem _ (hold ha).1
  · dsimp only
    by_cases ha : a = address
    · subst ha
      rw [hself, hkey]
      exact ⟨fun he => ⟨List.mem_cons_self, he⟩, And.right⟩
    · rw [hothers key a ha, h.store, Function.update_of_ne ha, List.mem_cons, List.mem_erase_of_ne ha]
      simp [ha]
  · refine List.pairwise_cons.mpr ⟨fun a ha => ?_, ?_⟩
    · dsimp only
      rw [hself, (hold ha).2, hactive]
      exact (h.active a (hold ha).1).trans hle
    · refine (h.latestFirst.sublist List.erase_sublist).imp_of_mem fun ha hb hab => ?_
      dsimp only
      rw [(hold ha).2, (hold hb).2]
      exact hab
  all_goals
    dsimp only
    rcases List.mem_cons.mp ha with rfl | ha
  · rw [hself, hactive]
  · rw [(hold ha).2]
    exact (h.active a (hold ha).1).trans hle
  · rw [hself]
    exact hordered
  · rw [(hold ha).2]
    exact h.ordered a (hold ha).1
  · rw [hself, hactive]
    exact hinTime
  · rw [(hold ha).2]
    exact h.inTime a (hold ha).1

end WellKept

/-- What a request finds: the entry of its key in front, with the requests of the window. -/
structure Activated (l : Limiter) (key : String) (duration now : ℤ) (address : ℕ) (l' : Limiter) : Prop where
  kept : WellKept l' now
  store : l'.store key = some address
  lru : l'.lru = address :: l'.lru.erase address
  active : (l'.entries address).lastActive = now
  window : (l'.entries address).requests.nodes = (l.remembered key).filter fun t => Recent (unix now) duration t
  others : ∀ other, other ≠ key → l'.remembered other = l.remembered other
  idle : l'.expirationDuration = l.expirationDuration

theorem activate_spec (h : WellKept l clock) (hle : clock ≤ now) (key : String) (duration : ℤ) :
    ∃ address l', l.activate key duration now = some (address, l') ∧ Activated l key duration now address l' := by
  unfold Limiter.activate
  cases hstore : l.store key with
  | none =>
    have hfresh : l.next ∉ l.lru := fun hmem => Nat.lt_irrefl _ (h.fresh _ hmem)
    have hremembered : l.remembered key = [] := by
      unfold Limiter.remembered
      rw [hstore]
    refine ⟨_, _, rfl, ?_, Function.update_self _ _ _,
      (congrArg _ (List.erase_cons_head _ _)).symm, ?_, ?_, fun other hother => ?_, rfl⟩
    · have hkept := h.front hle l.next ⟨key, now, .clear⟩ (Function.update l.store key (some l.next)) (l.next + 1) ?_
        rfl ⟨List.Pairwise.nil, rfl⟩ nofun ?_ ?_
      · rwa [List.erase_of_not_mem hfresh] at hkept
      · intro a ha
        rcases List.mem_cons.mp ha with rfl | ha
        · omega
        · have := h.fresh a ha
          omega
      · intro other
        by_cases hother : other = key
        · subst hother
          simp
        · rw [Function.update_of_ne hother]
          refine iff_of_false (fun hsome => hfresh ((h.store _ _).mp hsome).1) fun he => hother he.symm
      · intro other a ha
        by_cases hother : other = key
        · subst hother
          rw [Function.update_self, hstore]
          exact iff_of_false (fun he => ha (Option.some.inj he).symm) nofun
        · rw [Function.update_of_ne hother]
    · simp
    · rw [hremembered]
      simp [clear]
    · unfold Limiter.remembered
      dsimp only
      rw [Function.update_of_ne hother]
      cases hsome : l.store other with
      | none => rfl
      | some a =>
        have hne : a ≠ l.next := fun he => hfresh (he ▸ ((h.store _ _).mp hsome).1)
        dsimp only
        rw [Function.update_of_ne hne]
  | some address =>
    obtain ⟨hmem, hkey⟩ := (h.store _ _).mp hstore
    obtain ⟨kept, hkept, hordered, hnodes⟩ := removeExpired_eq (h.ordered _ hmem) (unix now) duration
    dsimp only
    rw [hkept]
    refine ⟨_, _, rfl, ?_, hstore, (congrArg _ (List.erase_cons_head _ _)).symm, ?_, ?_, fun other hother => ?_, rfl⟩
    · refine h.front hle _ _ _ _ (fun a ha => ?_) rfl hordered (fun timestamp ht => ?_)
        (fun other => ?_) fun _ _ _ => Iff.rfl
      · rcases List.mem_cons.mp ha with rfl | ha
        · exact h.fresh _ hmem
        · exact h.fresh _ ha
      · dsimp only at ht
        rw [hnodes] at ht
        exact (h.inTime _ hmem _ (List.mem_filter.mp ht).1).trans (unix_mono ((h.active _ hmem).trans hle))
      · rw [h.store]
        exact and_iff_right hmem
    · simp
    · unfold Limiter.remembered
      rw [hstore]
      simp [hnodes]
    · unfold Limiter.remembered
      dsimp only
      cases hsome : l.store other with
      | none => rfl
      | some a =>
        have hne : a ≠ address := by
          rintro rfl
          exact hother (((h.store _ _).mp hsome).2.symm.trans hkey)
        dsimp only
        rw [Function.update_of_ne hne]

/-- `Request` does not panic. It says whether the window has room, and adds the request if so. -/
theorem request_spec (h : WellKept l clock) (hle : clock ≤ now) (key : String) (maxRequestNum duration : ℤ) :
    ∃ l' : Limiter, l.request key maxRequestNum duration now = some (l', decide
        ((((l.remembered key).filter fun t => Recent (unix now) duration t).length : ℤ) < maxRequestNum)) ∧
      WellKept l' now ∧ l'.expirationDuration = l.expirationDuration ∧
      (∀ other, other ≠ key → l'.remembered other = l.remembered other) ∧
      l'.remembered key = ((l.remembered key).filter fun t => Recent (unix now) duration t) ++
        if (((l.remembered key).filter fun t => Recent (unix now) duration t).length : ℤ) < maxRequestNum then
          [unix now] else [] := by
  obtain ⟨address, l', hactivate, ha⟩ := activate_spec h hle key duration
  have hmem : address ∈ l'.lru := by
    rw [ha.lru]
    exact List.mem_cons_self
  have hordered := ha.kept.ordered _ hmem
  have hremembered : l'.remembered key = (l'.entries address).requests.nodes := by
    unfold Limiter.remembered
    rw [ha.store]
  unfold Limiter.request
  rw [hactivate]
  dsimp only
  rw [← ha.window, hordered.length]
  split_ifs with hroom
  · refine ⟨_, congrArg some (Prod.ext rfl (decide_eq_true hroom).symm), ?_, ha.idle, fun other hother => ?_, ?_⟩
    · have hfront := ha.kept.front le_rfl address
        { l'.entries address with requests := (l'.entries address).requests.append (unix now) } l'.store l'.next
        (fun a hin => ?_) ha.active (hordered.append fun t ht => ?_) (fun t ht => ?_)
        (fun other => ?_) fun _ _ _ => Iff.rfl
      · rw [← ha.lru] at hfront
        exact hfront
      · rcases List.mem_cons.mp hin with rfl | hin
        · exact ha.kept.fresh _ hmem
        · exact ha.kept.fresh _ hin
      · have := ha.kept.inTime _ hmem t ht
        rwa [ha.active] at this
      · rcases List.mem_append.mp ht with ht | ht
        · have := ha.kept.inTime _ hmem t ht
          rwa [ha.active] at this
        · exact (List.mem_singleton.mp ht).le
      · rw [ha.kept.store]
        exact and_iff_right hmem
    · rw [← ha.others other hother]
      unfold Limiter.remembered
      dsimp only
      cases hsome : l'.store other with
      | none => rfl
      | some a =>
        have hne : a ≠ address := by
          rintro rfl
          exact hother (((ha.kept.store _ _).mp hsome).2.symm.trans ((ha.kept.store _ _).mp ha.store).2)
        dsimp only
        rw [Function.update_of_ne hne]
    · unfold Limiter.remembered
      dsimp only
      rw [ha.store]
      simp [Queue.append]
  · refine ⟨_, congrArg some (Prod.ext rfl (decide_eq_false hroom).symm), ha.kept, ha.idle, ha.others, ?_⟩
    rw [List.append_nil, hremembered]

/-! ## Sweeps -/

theorem WellKept.forget (h : WellKept l clock) (hmem : address ∈ l.lru) : WellKept { l with
      store := Function.update l.store (l.entries address).key none
      lru := l.lru.erase address
      entries := Function.update l.entries address { l.entries address with requests := .clear } } clock := by
  have hnot : address ∉ l.lru.erase address := h.nodup.not_mem_erase
  have hold : ∀ {a}, a ∈ l.lru.erase address → a ∈ l.lru ∧
      Function.update l.entries address { l.entries address with requests := .clear } a = l.entries a :=
    fun {a} ha => ⟨List.mem_of_mem_erase ha, Function.update_of_ne (ne_of_mem_of_not_mem ha hnot) _ _⟩
  have hstore := (h.store _ _).mpr ⟨hmem, rfl⟩
  refine ⟨h.nodup.erase _, fun a ha => h.fresh a (hold ha).1, fun key a => ?_, ?_, fun a ha => ?_, fun a ha => ?_,
    fun a ha => ?_⟩
  · dsimp only
    by_cases hkey : key = (l.entries address).key
    · subst hkey
      rw [Function.update_self]
      refine iff_of_false nofun fun ⟨ha, hsame⟩ => ?_
      rw [(hold ha).2] at hsame
      have hsome := (h.store _ _).mpr ⟨(hold ha).1, hsame⟩
      exact ne_of_mem_of_not_mem ha hnot (Option.some.inj (hsome.symm.trans hstore))
    · rw [Function.update_of_ne hkey, h.store]
      constructor
      · rintro ⟨ha, rfl⟩
        have hne : a ≠ address := fun he => hkey (congrArg (fun a => (l.entries a).key) he)
        exact ⟨(List.mem_erase_of_ne hne).mpr ha, by rw [Function.update_of_ne hne]⟩
      · rintro ⟨ha, hsame⟩
        rw [(hold ha).2] at hsame
        exact ⟨(hold ha).1, hsame⟩
  · refine (h.latestFirst.sublist List.erase_sublist).imp_of_mem fun ha hb hab => ?_
    dsimp only
    rw [(hold ha).2, (hold hb).2]
    exact hab
  all_goals
    dsimp only
    rw [(hold ha).2]
  · exact h.active a (hold ha).1
  · exact h.ordered a (hold ha).1
  · exact h.inTime a (hold ha).1

/-- A sweep keeps what it has of a key, or forgets a key that was idle. -/
structure Swept (l : Limiter) (now : ℤ) (l' : Limiter) : Prop where
  idle : l'.expirationDuration = l.expirationDuration
  remembered : ∀ key, l'.remembered key = l.remembered key ∨
    (l'.remembered key = [] ∧ ∃ last, l.expirationDuration ≤ now - last ∧
      ∀ timestamp ∈ l.remembered key, timestamp ≤ unix last)

theorem deleteIdle_spec {idlest : List ℕ} (h : WellKept l clock) (hlru : l.lru.reverse = idlest) :
    WellKept (l.deleteIdle now idlest) clock ∧ Swept l now (l.deleteIdle now idlest) := by
  induction idlest generalizing l with
  | nil => exact ⟨h, rfl, fun _ => .inl rfl⟩
  | cons oldest newer ih =>
    unfold Limiter.deleteIdle
    split_ifs with hactive
    · exact ⟨h, rfl, fun _ => .inl rfl⟩
    · have hmem : oldest ∈ l.lru := by
        rw [← List.mem_reverse, hlru]
        exact List.mem_cons_self
      have hnot : oldest ∉ newer := by
        have hnodup := List.nodup_reverse.mpr h.nodup
        rw [hlru] at hnodup
        exact (List.nodup_cons.mp hnodup).1
      have herase : (l.lru.erase oldest).reverse = newer := by
        rw [List.reverse_eq_iff.mp hlru, List.reverse_cons, List.erase_append_right _ (by simpa using hnot),
          List.erase_cons_head, List.append_nil, List.reverse_reverse]
      obtain ⟨hkept, hswept⟩ := ih (h.forget hmem) herase
      refine ⟨hkept, hswept.idle, fun key => ?_⟩
      have hforgot : ∀ key, key ≠ (l.entries oldest).key → Limiter.remembered { l with
          store := Function.update l.store (l.entries oldest).key none
          lru := l.lru.erase oldest
          entries := Function.update l.entries oldest { l.entries oldest with requests := .clear } } key =
            l.remembered key := by
        intro key hkey
        unfold Limiter.remembered
        dsimp only
        rw [Function.update_of_ne hkey]
        cases hsome : l.store key with
        | none => rfl
        | some a =>
          have hne : a ≠ oldest := by
            rintro rfl
            exact hkey ((h.store _ _).mp hsome).2.symm
          dsimp only
          rw [Function.update_of_ne hne]
      by_cases hkey : key = (l.entries oldest).key
      · subst hkey
        refine .inr ⟨?_, _, not_lt.mp hactive, fun timestamp ht => ?_⟩
        · have hnone : Limiter.remembered { l with
              store := Function.update l.store (l.entries oldest).key none
              lru := l.lru.erase oldest
              entries := Function.update l.entries oldest { l.entries oldest with requests := .clear } }
              (l.entries oldest).key = [] := by
            unfold Limiter.remembered
            simp
          rcases hswept.remembered (l.entries oldest).key with hsame | ⟨hnil, -⟩
          · exact hsame.trans hnone
          · exact hnil
        · unfold Limiter.remembered at ht
          rw [(h.store _ _).mpr ⟨hmem, rfl⟩] at ht
          exact h.inTime _ hmem _ ht
      · rw [← hforgot key hkey]
        exact hswept.remembered key

theorem deleteExpiredEntries_spec (h : WellKept l clock) (now : ℤ) :
    WellKept (l.deleteExpiredEntries now) clock ∧ Swept l now (l.deleteExpiredEntries now) := by
  unfold Limiter.deleteExpiredEntries
  split_ifs
  · exact ⟨h, rfl, fun _ => .inl rfl⟩
  · exact deleteIdle_spec h rfl

/-! ## Runs -/

/-- The limit and the duration of each key. -/
structure Config where
  maxRequestNum : String → ℤ
  duration : String → ℤ

inductive Action
  | request (key : String) (now : ℤ)
  | sweep (now : ℤ)

/-- The limiter, the time of the last step, and the key and second of every request that was accepted. -/
structure World where
  limiter : Limiter
  clock : ℤ
  accepted : List (String × ℤ) := []
  panicked : Bool := false

def World.past (w : World) (key : String) : List ℤ := (w.accepted.filter fun a => a.1 = key).map Prod.snd

/-- The accepted requests of a key in the last `duration` seconds. -/
def World.window (cfg : Config) (w : World) (key : String) (now : ℤ) : List ℤ :=
  (w.past key).filter fun timestamp => Recent (unix now) (cfg.duration key) timestamp

def step (cfg : Config) (w : World) : Action → World
  | .request key now =>
    match w.limiter.request key (cfg.maxRequestNum key) (cfg.duration key) now with
    | none => { w with clock := now, panicked := true }
    | some (limiter, allowed) =>
      { w with
        limiter := limiter
        clock := now
        accepted := if allowed then w.accepted ++ [(key, unix now)] else w.accepted }
  | .sweep now => { w with limiter := w.limiter.deleteExpiredEntries now, clock := max w.clock now }

/-- The clock does not go back. A sweep may come late. -/
def InOrder (w : World) : Action → Prop
  | .request _ now => w.clock ≤ now
  | .sweep _ => True

/-- The window of the key is no longer than an idle key is kept. -/
def WithinIdle (cfg : Config) (l : Limiter) (key : String) : Prop :=
  l.expirationDuration ≤ 0 ∨ cfg.duration key * second ≤ l.expirationDuration

def RequestWithinIdle (cfg : Config) (w : World) : Action → Prop
  | .request key _ => WithinIdle cfg w.limiter key
  | .sweep _ => True

/-- A request at any later time is rejected exactly when the window is full. -/
def ExactWindow (cfg : Config) (w : World) : Prop :=
  ∀ key now, w.clock ≤ now → ∃ limiter,
    w.limiter.request key (cfg.maxRequestNum key) (cfg.duration key) now =
      some (limiter, decide (((w.window cfg key now).length : ℤ) < cfg.maxRequestNum key))

structure Kept (cfg : Config) (w : World) : Prop where
  wellKept : WellKept w.limiter w.clock
  window : ∀ key now, w.clock ≤ now → w.window cfg key now =
    (w.limiter.remembered key).filter fun timestamp => Recent (unix now) (cfg.duration key) timestamp
  within : ∀ key, w.limiter.remembered key ≠ [] → WithinIdle cfg w.limiter key
  running : w.panicked = false

variable {cfg : Config} {w : World}

theorem Kept.exactWindow (h : Kept cfg w) : ExactWindow cfg w := by
  intro key now hle
  obtain ⟨limiter, hrequest, -⟩ := request_spec h.wellKept hle key (cfg.maxRequestNum key) (cfg.duration key)
  exact ⟨limiter, by rw [hrequest, h.window key now hle]⟩

theorem past_accept (w : World) (key other : String) (timestamp : ℤ) (limiter : Limiter) (clock : ℤ) (allowed : Bool) :
    World.past { w with
      limiter := limiter
      clock := clock
      accepted := if allowed then w.accepted ++ [(key, timestamp)] else w.accepted } other =
      w.past other ++ if allowed = true ∧ key = other then [timestamp] else [] := by
  unfold World.past
  cases allowed with
  | false => simp
  | true =>
    by_cases hkey : key = other
    · simp [hkey]
    · simp [hkey]

theorem Kept.request (h : Kept cfg w) {key : String} {now : ℤ} (hle : w.clock ≤ now)
    (hwithin : WithinIdle cfg w.limiter key) : Kept cfg (step cfg w (.request key now)) := by
  obtain ⟨limiter, hrequest, hkept, hidle, hothers, hself⟩ :=
    request_spec h.wellKept hle key (cfg.maxRequestNum key) (cfg.duration key)
  have hsame : ∀ other, WithinIdle cfg limiter other ↔ WithinIdle cfg w.limiter other := by
    intro other
    unfold WithinIdle
    rw [hidle]
  unfold step
  dsimp only
  rw [hrequest]
  refine ⟨hkept, fun other now' hle' => ?_, fun other hne => ?_, h.running⟩
  · dsimp only at hle'
    have hold := h.window other now' (hle.trans hle')
    unfold World.window at hold ⊢
    rw [past_accept, List.filter_append, hold]
    by_cases hkey : other = key
    · subst hkey
      dsimp only
      rw [hself, List.filter_append, filter_recent_filter (unix_mono hle')]
      simp
    · simp [hothers other hkey, Ne.symm hkey]
  · rw [hsame]
    by_cases hkey : other = key
    · exact hkey ▸ hwithin
    · refine h.within other ?_
      rw [← hothers other hkey]
      exact hne

theorem not_recent_of_idle {l : Limiter} {key : String} {now last timestamp : ℤ} (hwithin : WithinIdle cfg l key)
    (hpos : 0 < l.expirationDuration) (hidle : l.expirationDuration ≤ now - last) (ht : timestamp ≤ unix last) :
    ¬Recent (unix now) (cfg.duration key) timestamp := by
  have hwindow : cfg.duration key * second ≤ l.expirationDuration := hwithin.resolve_left (not_le.mpr hpos)
  have hshift : unix (last + cfg.duration key * second) = unix last + cfg.duration key :=
    Int.add_mul_ediv_right _ _ (by decide)
  have hunix : unix last + cfg.duration key ≤ unix now := hshift ▸ unix_mono (by omega)
  unfold Recent
  omega

theorem Kept.sweep (h : Kept cfg w) (now : ℤ) : Kept cfg (step cfg w (.sweep now)) := by
  obtain ⟨hkept, hswept⟩ := deleteExpiredEntries_spec h.wellKept now
  refine ⟨hkept.later (le_max_left _ _), fun key now' hle => ?_, fun key hne => ?_, h.running⟩
  · have hclock : w.clock ≤ now' := (le_max_left _ _).trans hle
    have hnow : now ≤ now' := (le_max_right _ _).trans hle
    have hold := h.window key now' hclock
    show w.window cfg key now' = _
    rw [hold]
    rcases hswept.remembered key with hsame | ⟨hnil, last, hidle, hbefore⟩
    · exact congrArg _ hsame.symm
    · show _ = List.filter _ ((w.limiter.deleteExpiredEntries now).remembered key)
      rw [hnil, List.filter_nil, List.filter_eq_nil_iff]
      intro timestamp ht
      rw [decide_eq_true_eq]
      by_cases hpos : 0 < w.limiter.expirationDuration
      · have hgone := not_recent_of_idle (h.within key (List.ne_nil_of_mem ht)) hpos hidle (hbefore timestamp ht)
        exact fun hrecent => hgone (recent_mono hrecent (unix_mono hnow))
      · -- without a duration of its own the limiter does not sweep
        exfalso
        have hsame : (w.limiter.deleteExpiredEntries now).remembered key = w.limiter.remembered key := by
          unfold Limiter.deleteExpiredEntries
          rw [if_pos (not_lt.mp hpos)]
        rw [hnil] at hsame
        exact List.ne_nil_of_mem ht hsame.symm
  · rcases hswept.remembered key with hsame | ⟨hnil, -⟩
    · have hwithin := h.within key (hsame ▸ hne)
      unfold WithinIdle at hwithin ⊢
      rw [show (step cfg w (.sweep now)).limiter.expirationDuration = _ from hswept.idle]
      exact hwithin
    · exact absurd hnil hne

def World.start (expirationDuration clock : ℤ) : World := { limiter := { expirationDuration }, clock }

theorem kept_start (cfg : Config) (expirationDuration clock : ℤ) : Kept cfg (.start expirationDuration clock) where
  wellKept := ⟨List.nodup_nil, nofun, fun _ _ => ⟨nofun, nofun⟩, List.Pairwise.nil, nofun, nofun, nofun⟩
  window _ _ _ := rfl
  within _ h := absurd rfl h
  running := rfl

/-- **A sliding window.** When no window is longer than the time after which an idle key is forgotten, a request is
rejected exactly when the window of its key is full, in every state of every run. And the map and the list hold the
same entries, in the order of the last requests, with queues in order. -/
theorem sliding_window (cfg : Config) (expirationDuration clock : ℤ) (as : List Action)
    (horder : Along (step cfg) InOrder (.start expirationDuration clock) as)
    (hwithin : Along (step cfg) (RequestWithinIdle cfg) (.start expirationDuration clock) as) :
    let w := run (step cfg) (.start expirationDuration clock) as
    ExactWindow cfg w ∧ WellKept w.limiter w.clock ∧ w.panicked = false := by
  have h : Kept cfg (run (step cfg) (.start expirationDuration clock) as) := by
    refine run_invariant_along (fun w a h hP => ?_) (kept_start cfg expirationDuration clock) (horder.and hwithin)
    cases a with
    | request key now => exact h.request hP.1 hP.2
    | sweep now => exact h.sweep now
  exact ⟨h.exactWindow, h.wellKept, h.running⟩

instance (w : World) : (a : Action) → Decidable (InOrder w a)
  | .request _ _ => inferInstanceAs (Decidable (_ ≤ _))
  | .sweep _ => inferInstanceAs (Decidable True)

instance (cfg : Config) (w : World) : (a : Action) → Decidable (RequestWithinIdle cfg w a)
  | .request _ _ => inferInstanceAs (Decidable (_ ∨ _))
  | .sweep _ => inferInstanceAs (Decidable True)

/-- One request in a window of some seconds. -/
def oneIn (seconds : ℤ) : Config := ⟨fun _ => 1, fun _ => seconds⟩

/-- A request, and a sweep after twenty seconds. -/
def requestAndSweep : List Action := [.request "client" 0, .sweep (20 * second)]

theorem sliding_window_short :
    let w := run (step (oneIn 10)) (.start (10 * second) 0) requestAndSweep
    ExactWindow (oneIn 10) w ∧ WellKept w.limiter w.clock ∧ w.panicked = false :=
  sliding_window (oneIn 10) (10 * second) 0 requestAndSweep (by decide) (by decide)

/-- The window is a hundred seconds and idle keys are kept for ten. The second request comes after thirty seconds and is
accepted. -/
theorem forgotten_early :
    (let w := run (step (oneIn 100)) (.start (10 * second) 0) requestAndSweep;
      w.window (oneIn 100) "client" (30 * second) = [0] ∧
        (w.limiter.request "client" 1 100 (30 * second)).map Prod.snd = some true) ∧
    ¬∀ (cfg : Config) (expirationDuration clock : ℤ) (as : List Action),
      Along (step cfg) InOrder (.start expirationDuration clock) as →
        ExactWindow cfg (run (step cfg) (.start expirationDuration clock) as) := by
  have hwindow : (run (step (oneIn 100)) (.start (10 * second) 0) requestAndSweep).window (oneIn 100) "client"
      (30 * second) = [0] := by decide
  have hrequest : ((run (step (oneIn 100)) (.start (10 * second) 0) requestAndSweep).limiter.request "client" 1 100
      (30 * second)).map Prod.snd = some true := by decide
  refine ⟨⟨hwindow, hrequest⟩, fun h => ?_⟩
  obtain ⟨limiter, hexact⟩ := h (oneIn 100) (10 * second) 0 requestAndSweep (by decide) "client" (30 * second)
    (by decide)
  rw [hwindow] at hexact
  have hrejected := (congrArg (Option.map Prod.snd) hexact).symm.trans hrequest
  simp [oneIn] at hrejected

end Vancine.RateLimit
