import Mathlib.Algebra.Order.Group.Int
import Mathlib.Data.List.Pairwise
import Vancine.Lib.Run

/-!
# The limiter in memory

Each key has a queue of the requests that were accepted, oldest first, and an entry in a list of the keys by their last
request. A request first drops what is older than its window. A sweep forgets the keys at the end of the list that
have been idle for the limiter's own duration, which all keys share.
-/

namespace Vancine.RateLimit

/-- Nanoseconds in a second. -/
def second : ℤ := 1000000000

def unix (now : ℤ) : ℤ := now / second

/-! ## A queue -/

/-- The chain of requests from `head` to `tail`, and the field `length`. -/
structure Queue where
  nodes : List ℤ
  length : ℤ
  deriving DecidableEq

namespace Queue

def append (q : Queue) (timestamp : ℤ) : Queue := ⟨q.nodes ++ [timestamp], q.length + 1⟩

def clear : Queue := ⟨[], 0⟩

/-- The loop of `removeExpired`; with no node left it would read a field of nil. -/
def dropExpired (now duration : ℤ) : List ℤ → ℤ → Option Queue
  | [], _ => none
  | timestamp :: rest, length =>
    if duration ≤ now - timestamp then dropExpired now duration rest (length - 1)
    else some ⟨timestamp :: rest, length⟩

def removeExpired (q : Queue) (now duration : ℤ) : Option Queue :=
  match q.nodes.head?, q.nodes.getLast? with
  | some head, some tail =>
    if now - head < duration then some q
    else if duration ≤ now - tail then some clear
    else dropExpired now duration q.nodes q.length
  | _, _ => some q

/-- In order of time, with the length that it says. -/
structure Ordered (q : Queue) : Prop where
  sorted : q.nodes.Pairwise (· ≤ ·)
  length : q.length = q.nodes.length

/-- Neither older than the window nor at its end. -/
def Recent (now duration timestamp : ℤ) : Prop := now - timestamp < duration

instance (now duration timestamp : ℤ) : Decidable (Recent now duration timestamp) :=
  inferInstanceAs (Decidable (_ < _))

theorem filter_recent_of_head {now duration head : ℤ} {rest : List ℤ} (hsorted : (head :: rest).Pairwise (· ≤ ·))
    (hhead : Recent now duration head) :
    (head :: rest).filter (fun timestamp => Recent now duration timestamp) = head :: rest := by
  rw [List.filter_eq_self]
  intro timestamp hmem
  have hle : head ≤ timestamp := by
    rcases List.mem_cons.mp hmem with rfl | hrest
    · exact le_rfl
    · exact (List.pairwise_cons.mp hsorted).1 timestamp hrest
  unfold Recent at *
  exact decide_eq_true (by omega)

theorem dropExpired_eq {now duration : ℤ} {nodes : List ℤ} {length : ℤ} (hsorted : nodes.Pairwise (· ≤ ·))
    (hlength : length = nodes.length) (hsome : ∃ timestamp ∈ nodes, Recent now duration timestamp) :
    ∃ kept : Queue, dropExpired now duration nodes length = some kept ∧ kept.Ordered ∧
      kept.nodes = nodes.filter fun timestamp => Recent now duration timestamp := by
  induction nodes generalizing length with
  | nil => obtain ⟨timestamp, hmem, -⟩ := hsome; cases hmem
  | cons head rest ih =>
    unfold dropExpired
    split_ifs with hold
    · have hhead : ¬Recent now duration head := not_lt.mpr hold
      obtain ⟨timestamp, hmem, hrecent⟩ := hsome
      have hrest : timestamp ∈ rest := by
        rcases List.mem_cons.mp hmem with rfl | hrest
        · exact absurd hrecent hhead
        · exact hrest
      rw [List.filter_cons_of_neg (by simpa using hhead)]
      refine ih hsorted.of_cons ?_ ⟨timestamp, hrest, hrecent⟩
      rw [hlength, List.length_cons]
      push_cast
      exact Int.add_sub_cancel _ 1
    · exact ⟨_, rfl, ⟨hsorted, hlength⟩, (filter_recent_of_head hsorted (not_le.mp hold)).symm⟩

/-- A queue in order is left with the requests of the window. -/
theorem removeExpired_eq {q : Queue} (h : q.Ordered) (now duration : ℤ) :
    ∃ kept : Queue, q.removeExpired now duration = some kept ∧ kept.Ordered ∧
      kept.nodes = q.nodes.filter fun timestamp => Recent now duration timestamp := by
  obtain ⟨nodes, length⟩ := q
  obtain ⟨hsorted, hlength⟩ := h
  dsimp only at hsorted hlength
  cases nodes with
  | nil => exact ⟨⟨[], length⟩, rfl, ⟨hsorted, hlength⟩, rfl⟩
  | cons head rest =>
    have hlast : (head :: rest).getLast? = some ((head :: rest).getLast (List.cons_ne_nil _ _)) :=
      List.getLast?_eq_some_getLast _
    have htail := List.getLast_mem (List.cons_ne_nil head rest)
    unfold removeExpired
    simp only [List.head?_cons, hlast]
    split_ifs with hhead hold
    · exact ⟨_, rfl, ⟨hsorted, hlength⟩, (filter_recent_of_head hsorted hhead).symm⟩
    · refine ⟨clear, rfl, ⟨List.Pairwise.nil, rfl⟩, (List.filter_eq_nil_iff.mpr fun timestamp hmem => ?_).symm⟩
      have hle : timestamp ≤ (head :: rest).getLast (List.cons_ne_nil _ _) := by
        rw [← List.dropLast_concat_getLast (List.cons_ne_nil head rest)] at hsorted hmem
        rcases List.mem_append.mp hmem with hearly | hlast
        · exact (List.pairwise_append.mp hsorted).2.2 timestamp hearly _ (List.mem_singleton_self _)
        · exact (List.mem_singleton.mp hlast).le
      rw [decide_eq_true_eq]
      unfold Recent
      omega
    · exact dropExpired_eq hsorted hlength ⟨_, htail, not_le.mp hold⟩

theorem Ordered.append {q : Queue} (h : q.Ordered) {timestamp : ℤ} (hlate : ∀ earlier ∈ q.nodes, earlier ≤ timestamp) :
    (q.append timestamp).Ordered where
  sorted := List.pairwise_append.mpr ⟨h.sorted, List.pairwise_singleton _ _, fun earlier hmem later hlater => by
    rw [List.mem_singleton.mp hlater]
    exact hlate earlier hmem⟩
  length := by
    show q.length + 1 = ((q.nodes ++ [timestamp]).length : ℤ)
    rw [h.length, List.length_append, List.length_singleton]
    push_cast
    rfl

end Queue

/-! ## The limiter -/

structure Entry where
  key : String
  lastActive : ℤ
  requests : Queue

/-- The entries by their addresses, the map of the keys, and the list of the entries, the latest first. Times are in
nanoseconds. -/
structure Limiter where
  entries : ℕ → Entry := fun _ => ⟨"", 0, .clear⟩
  next : ℕ := 0
  store : String → Option ℕ := fun _ => none
  lru : List ℕ := []
  expirationDuration : ℤ

namespace Limiter

/-- The walk of `deleteExpiredEntries` from the end of the list. -/
def deleteIdle (now : ℤ) : List ℕ → Limiter → Limiter
  | [], l => l
  | oldest :: newer, l =>
    if now - (l.entries oldest).lastActive < l.expirationDuration then l
    else deleteIdle now newer
      { l with
        store := Function.update l.store (l.entries oldest).key none
        lru := l.lru.erase oldest
        entries := Function.update l.entries oldest { l.entries oldest with requests := .clear } }

def deleteExpiredEntries (l : Limiter) (now : ℤ) : Limiter :=
  if l.expirationDuration ≤ 0 then l else deleteIdle now l.lru.reverse l

/-- The entry of the key, in front of the list: a new one, or its own without what has expired. -/
def activate (l : Limiter) (key : String) (duration now : ℤ) : Option (ℕ × Limiter) :=
  match l.store key with
  | none =>
    some (l.next, { l with
      entries := Function.update l.entries l.next ⟨key, now, .clear⟩
      next := l.next + 1
      store := Function.update l.store key (some l.next)
      lru := l.next :: l.lru })
  | some address =>
    match (l.entries address).requests.removeExpired (unix now) duration with
    | none => none
    | some requests =>
      some (address, { l with
        entries := Function.update l.entries address
          { l.entries address with requests := requests, lastActive := now }
        lru := address :: l.lru.erase address })

/-- `Request`; none when it panics. -/
def request (l : Limiter) (key : String) (maxRequestNum duration now : ℤ) : Option (Limiter × Bool) :=
  match l.activate key duration now with
  | none => none
  | some (address, l) =>
    let entry := l.entries address
    if entry.requests.length < maxRequestNum then
      some ({ l with
        entries := Function.update l.entries address
          { entry with requests := entry.requests.append (unix now) } }, true)
    else some (l, false)

end Limiter

end Vancine.RateLimit
