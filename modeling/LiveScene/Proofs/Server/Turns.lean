import LiveScene.Server.Journal

/-!
# The turns of a server

The turns in the life of a server are the events that open and close its sessions: a transport is
asked to listen, a session begins, its shutdown listeners start to be called, its transport is
closed, and it ends (`Turn`, `turnsIn`).

A `Stage` is where these turns have led, and `Stage.Step` says which turn may come next: each
session takes its turns once and in this order, and between two sessions transports may be asked in
vain. The turns of a server always are a path of such steps (`Machine.Reachable.onCourse`). What the
order of turns comes to is read off paths: the turns after the beginning of a session are a first
part of firing, closing and ending, as far as the session lasts (`Stage.Path.session`), and the
session that is open is the one that has begun and not ended (`Stage.Path.open_iff`).
-/

namespace LiveScene

/-- A turn in the life of a server. -/
inductive Turn where
  /-- a transport is asked to listen -/
  | asked (port : UInt16)
  /-- a session begins -/
  | begun (session : Nat)
  /-- the shutdown listeners are about to be called -/
  | fired
  /-- the transport of a session is closed -/
  | closed (session : Nat)
  /-- a session has ended -/
  | ended (session : Nat)
deriving DecidableEq

/-- The turn that an event is. -/
def Event.turn? : Event → Option Turn
  | .listening port => some (.asked port)
  | .accepted session => some (.begun session)
  | .announced .shutdown => some .fired
  | .closed session => some (.closed session)
  | .ended session => some (.ended session)
  | _ => none

/-- The turns in some events, in order. -/
def turnsIn (es : List Event) : List Turn := es.filterMap Event.turn?

@[simp] theorem turnsIn_nil : turnsIn [] = [] := rfl

@[simp] theorem turnsIn_cons (e : Event) (es : List Event) :
    turnsIn (e :: es) = e.turn?.toList ++ turnsIn es := by
  cases h : e.turn? <;> simp [turnsIn, h]

@[simp] theorem turnsIn_append (es fs : List Event) :
    turnsIn (es ++ fs) = turnsIn es ++ turnsIn fs := by
  simp [turnsIn]

@[simp] theorem turnsIn_map_queued (cs : List Command) : turnsIn (cs.map .queued) = [] := by
  simp [turnsIn, Event.turn?]

@[simp] theorem turnsIn_map_noted (ns : List Notice) : turnsIn (ns.map .noted) = [] := by
  simp [turnsIn, Event.turn?]

/-- An element of two lists is in the one or in the other. -/
theorem split_append {α : Type} {as bs pre post : List α} {a : α}
    (h : as ++ bs = pre ++ a :: post) :
    (∃ mid, as = pre ++ a :: mid ∧ post = mid ++ bs) ∨
      ∃ mid, pre = as ++ mid ∧ bs = mid ++ a :: post := by
  rcases List.append_eq_append_iff.mp h with ⟨mid, hpre, hbs⟩ | ⟨mid, has, hpost⟩
  · exact Or.inr ⟨mid, hpre, hbs⟩
  · cases mid with
    | nil => exact Or.inr ⟨[], by simpa using has.symm, hpost.symm⟩
    | cons b mid =>
      rw [List.cons_append, List.cons_eq_cons] at hpost
      obtain ⟨rfl, rfl⟩ := hpost
      exact Or.inl ⟨mid, has, rfl⟩

/-- The beginning of a session, among some turns, is an event among the others. -/
theorem split_of_turnsIn {es : List Event} {pre mid : List Turn} {n : Nat}
    (h : turnsIn es = pre ++ .begun n :: mid) :
    ∃ before within, es = before ++ .accepted n :: within ∧ turnsIn within = mid := by
  obtain ⟨es₁, es₂, rfl, -, htail⟩ := List.filterMap_eq_append_iff.mp h
  obtain ⟨fs, e, within, rfl, -, he, hwithin⟩ := List.filterMap_eq_cons_iff.mp htail
  obtain rfl : e = .accepted n := by
    unfold Event.turn? at he
    split at he <;> simp_all
  exact ⟨es₁ ++ fs, within, by simp, hwithin⟩

/-- Where the turns of a server have led. -/
inductive Stage where
  /-- no session is open, after so many -/
  | idle (sessions : Nat)
  /-- a session has begun -/
  | live (session : Nat)
  /-- its shutdown listeners have started to be called -/
  | fired (session : Nat)
  /-- its transport has been closed -/
  | closed (session : Nat)
deriving DecidableEq

namespace Stage

/-- Which turn may be next, and where it leads. -/
inductive Step : Stage → Turn → Stage → Prop
  | ask (n : Nat) (port : UInt16) : Step (idle n) (.asked port) (idle n)
  | start (n : Nat) : Step (idle n) (.begun n) (live n)
  | fire (n : Nat) : Step (live n) .fired (fired n)
  | close (n : Nat) : Step (fired n) (.closed n) (closed n)
  | finish (n : Nat) : Step (closed n) (.ended n) (idle (n + 1))

/-- Some turns lead from one stage to another. -/
inductive Path : Stage → List Turn → Stage → Prop
  | nil (st : Stage) : Path st [] st
  | cons {st st' st'' : Stage} {t : Turn} {ts : List Turn} (h : Step st t st')
    (h' : Path st' ts st'') : Path st (t :: ts) st''

/-- The number of the session that is open or comes next. -/
def number : Stage → Nat
  | idle n | live n | fired n | closed n => n

/-- The session that has begun and not ended. -/
def open? : Stage → Option Nat
  | idle _ => none
  | live n | fired n | closed n => some n

variable {st st' st'' : Stage} {t : Turn} {ts us pre mid post : List Turn} {n k : Nat}

theorem path_append :
    Path st (ts ++ us) st'' ↔ ∃ st', Path st ts st' ∧ Path st' us st'' := by
  constructor
  · intro h
    induction ts generalizing st with
    | nil => exact ⟨st, .nil st, h⟩
    | cons t ts ih =>
      cases h with
      | cons hs h =>
        obtain ⟨st', h', hu⟩ := ih h
        exact ⟨st', .cons hs h', hu⟩
  · rintro ⟨st', h, hu⟩
    induction h with
    | nil => exact hu
    | cons hs _ ih => exact .cons hs (ih hu)

/-- The last of some turns. -/
theorem Path.last (h : Path st (ts ++ [t]) st'') : ∃ st', Path st ts st' ∧ Step st' t st'' := by
  obtain ⟨st', h, h'⟩ := path_append.mp h
  cases h' with
  | cons hs hnil =>
    cases hnil
    exact ⟨st', h, hs⟩

/-- A turn in the middle. -/
theorem Path.split (h : Path st (pre ++ t :: post) st'') :
    ∃ s₁ s₂, Path st pre s₁ ∧ Step s₁ t s₂ ∧ Path s₂ post st'' := by
  obtain ⟨s₁, hpre, h⟩ := path_append.mp h
  cases h with
  | cons hs hpost => exact ⟨s₁, _, hpre, hs, hpost⟩

/-! ## Numbers of sessions -/

theorem Path.number_le (h : Path st ts st') : st.number ≤ st'.number := by
  induction h with
  | nil => exact Nat.le_refl _
  | cons hs _ ih => cases hs <;> simp only [number] at ih ⊢ <;> omega

/-- Only sessions that come next can begin. -/
theorem Path.le_of_begun (h : Path st ts st') (hk : .begun k ∈ ts) : st.number ≤ k := by
  induction h with
  | nil => cases hk
  | cons hs _ ih =>
    cases hs <;> simp only [List.mem_cons, reduceCtorEq, false_or, Turn.begun.injEq] at hk
    case start n => exact hk.elim (fun h => Nat.le_of_eq h.symm) ih
    all_goals have := ih hk; simp only [number] at this ⊢; omega

/-- The open session is the one that was open or has begun, and has not ended. -/
theorem Path.open_iff (h : Path st ts st') :
    st'.open? = some n ↔ (st.open? = some n ∨ .begun n ∈ ts) ∧ .ended n ∉ ts := by
  induction h with
  | nil => simp
  | cons hs hp ih =>
    rw [ih]
    cases hs with
    | finish k =>
      -- session `k` is over: none with its number can begin again
      have hn : Turn.begun n ∈ _ → k + 1 ≤ n := hp.le_of_begun
      simp only [open?, List.mem_cons, reduceCtorEq, false_or, Turn.ended.injEq, Option.some.injEq]
      grind
    | ask _ _ | start _ | fire _ | close _ => simp [open?, eq_comm]

/-! ## The turns of a session -/

/-- What comes after the beginning of a session. -/
theorem Path.session (h : Path (live n) mid st) :
    (mid = [] ∧ st = live n) ∨ (mid = [.fired] ∧ st = fired n) ∨
      (mid = [.fired, .closed n] ∧ st = closed n) ∨
      ∃ rest, mid = .fired :: .closed n :: .ended n :: rest ∧ Path (idle (n + 1)) rest st := by
  cases h with
  | nil => exact Or.inl ⟨rfl, rfl⟩
  | cons hs h =>
  cases hs
  refine Or.inr ?_
  cases h with
  | nil => exact Or.inl ⟨rfl, rfl⟩
  | cons hs h =>
  cases hs
  refine Or.inr ?_
  cases h with
  | nil => exact Or.inl ⟨rfl, rfl⟩
  | cons hs h =>
  cases hs
  exact Or.inr ⟨_, rfl, h⟩

/-- A session that has ended has fired once. -/
theorem Path.count_fired_of_ended (h : Path st (pre ++ .begun n :: (mid ++ .ended n :: post)) st') :
    mid.count .fired = 1 := by
  obtain ⟨_, _, -, hbegun, h⟩ := h.split
  obtain ⟨_, _, hmid, hended, -⟩ := h.split
  cases hbegun
  cases hended
  rcases hmid.session with ⟨-, h⟩ | ⟨-, h⟩ | ⟨rfl, -⟩ | ⟨rest, -, h⟩
  · cases h
  · cases h
  · rfl
  · have hn : n + 1 ≤ n := h.number_le
    omega

/-- A session that has not ended has fired once at most. -/
theorem Path.count_fired_le (h : Path st (pre ++ .begun n :: mid) st') (hn : .ended n ∉ mid) :
    mid.count .fired ≤ 1 := by
  obtain ⟨_, _, -, hbegun, h⟩ := h.split
  cases hbegun
  rcases h.session with ⟨rfl, -⟩ | ⟨rfl, -⟩ | ⟨rfl, -⟩ | ⟨rest, rfl, -⟩
  · decide
  · decide
  · simp
  · simp at hn

/-- Listeners fire in a session that has begun and not ended. -/
theorem Path.begun_of_fired (h : Path (idle k) (pre ++ .fired :: post) st) :
    ∃ n, .begun n ∈ pre ∧ .ended n ∉ pre := by
  obtain ⟨_, _, hpre, hfired, -⟩ := h.split
  cases hfired with
  | fire n =>
    have h : (live n).open? = some n := rfl
    rw [hpre.open_iff] at h
    exact ⟨n, by simpa [open?] using h⟩

/-- As long as no session begins, transports are asked in vain. -/
theorem Path.asked_of_idle (h : Path (idle n) ts (idle k)) (hts : ∀ j, .begun j ∉ ts) :
    k = n ∧ ∀ t ∈ ts, ∃ port, t = .asked port := by
  generalize hst : idle n = st at h
  generalize hst' : idle k = st' at h
  induction h with
  | nil =>
    subst hst
    cases hst'
    simp
  | cons hs _ ih =>
    subst hst
    cases hs with
    | ask _ port =>
      obtain ⟨hk, hall⟩ := ih (fun j hj => hts j (List.mem_cons_of_mem _ hj)) rfl hst'
      exact ⟨hk, List.forall_mem_cons.mpr ⟨⟨port, rfl⟩, hall⟩⟩
    | start _ => exact absurd List.mem_cons_self (hts n)

/-- From one beginning to the next, a session fires, is closed and ends, once each and in this
order, and all else is that transports are asked in vain. -/
theorem Path.between_begun (h : Path st (pre ++ .begun n :: (mid ++ .begun k :: post)) st')
    (hmid : ∀ j, .begun j ∉ mid) :
    k = n + 1 ∧ ∃ rest, mid = .fired :: .closed n :: .ended n :: rest ∧
      ∀ t ∈ rest, ∃ port, t = .asked port := by
  obtain ⟨_, _, -, hn, h⟩ := h.split
  obtain ⟨_, _, hlive, hk, -⟩ := h.split
  cases hn
  cases hk
  rcases hlive.session with ⟨-, h⟩ | ⟨-, h⟩ | ⟨-, h⟩ | ⟨rest, rfl, hidle⟩
  · cases h
  · cases h
  · cases h
  · obtain ⟨hkn, hall⟩ := hidle.asked_of_idle fun j hj => hmid j (by simp [hj])
    exact ⟨hkn, rest, rfl, hall⟩

/-- A session is live right after it has begun. -/
theorem Path.last_of_live (h : Path (idle k) ts (live n)) : ∃ pre, ts = pre ++ [.begun n] := by
  rcases List.eq_nil_or_concat ts with rfl | ⟨pre, t, rfl⟩
  · cases h
  rw [List.concat_eq_append] at h ⊢
  obtain ⟨_, -, hbegun⟩ := h.last
  cases hbegun
  exact ⟨pre, rfl⟩

/-- A session has fired right after it has begun. -/
theorem Path.last_of_fired (h : Path (idle k) ts (fired n)) :
    ∃ pre, ts = pre ++ [.begun n, .fired] := by
  rcases List.eq_nil_or_concat ts with rfl | ⟨us, t, rfl⟩
  · cases h
  rw [List.concat_eq_append] at h ⊢
  obtain ⟨_, h, hfired⟩ := h.last
  cases hfired
  obtain ⟨pre, rfl⟩ := h.last_of_live
  exact ⟨pre, by simp⟩

/-- Right before a session is closed it has begun and fired. -/
theorem Path.before_closed (h : Path (idle k) (pre ++ .closed n :: post) st) :
    ∃ pre', pre = pre' ++ [.begun n, .fired] := by
  obtain ⟨_, _, h, hclosed, -⟩ := h.split
  cases hclosed
  exact h.last_of_fired

/-- What is left to be done of a session that fires, until it is closed. -/
theorem Path.closed_of_live (h : Path (live n) ts (closed n)) : ts = [.fired, .closed n] := by
  rcases h.session with ⟨-, h⟩ | ⟨-, h⟩ | ⟨rfl, -⟩ | ⟨rest, -, h⟩
  · cases h
  · cases h
  · rfl
  · have hn : n + 1 ≤ n := h.number_le
    omega

/-- A session that has fired does not fire again before it is closed. -/
theorem Path.closed_of_fired (h : Path (fired n) ts (closed n)) : ts = [.closed n] :=
  (List.cons.inj (Path.cons (.fire n) h).closed_of_live).2

/-- From where a session serves, having fired or not, to where it is closed, it fires unless it has;
so it has fired once then since it began. -/
theorem Path.closed_of_open {hasFired : Bool}
    (h : Path (idle k) ts (if hasFired then fired n else live n))
    (h' : Path (if hasFired then fired n else live n) us (closed n)) :
    ∃ pre, ts = pre ++ .begun n :: (if hasFired then [.fired] else []) ∧
      ts ++ us = pre ++ [.begun n, .fired, .closed n] := by
  cases hasFired with
  | false =>
    obtain ⟨pre, rfl⟩ := h.last_of_live
    exact ⟨pre, rfl, by rw [h'.closed_of_live, List.append_assoc]; rfl⟩
  | true =>
    obtain ⟨pre, rfl⟩ := h.last_of_fired
    exact ⟨pre, rfl, by rw [h'.closed_of_fired, List.append_assoc]; rfl⟩

end Stage

end LiveScene
