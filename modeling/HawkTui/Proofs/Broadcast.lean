import HawkTui.Hawkd.Spine

/-! Delivery over whole runs of the spine. Accept and broadcast steps interleave
freely and any write may fail part way, yet each client gets its own messages in
order, up to the point where its own stream broke. -/

namespace HawkTui.Proofs.Broadcast
open Lib Spine

/-- What a client's socket becomes, and whether its write succeeds, in one round. -/
def attempt (bytes : Bytes) (outcome : Nat → WriteOutcome) (state : State) (client : Nat) : Bool × Socket :=
  (state.sockets client).writeAll bytes (outcome client)

private theorem sweep_write (bytes : Bytes) (outcome : Nat → WriteOutcome) (clients : List Nat) (state : State)
    (distinct : clients.Nodup) :
    sweep (fun client state => write client bytes (outcome client) state) clients state =
      (clients.filter fun client => (attempt bytes outcome state client).1,
        { state with
          sockets := fun client =>
            if client ∈ clients then (attempt bytes outcome state client).2 else state.sockets client
          writes := state.writes ++ clients.map fun client => (client, (attempt bytes outcome state client).1) }) := by
  induction clients generalizing state with
  | nil => simp [sweep]
  | cons client rest ih =>
    obtain ⟨absent, distinct⟩ := List.nodup_cons.mp distinct
    -- the head's write leaves the sockets of the rest alone
    have others : ∀ other ∈ rest, attempt bytes outcome (write client bytes (outcome client) state).2 other =
        attempt bytes outcome state other := by
      intro other member
      have different : other ≠ client := by rintro rfl; exact absent member
      simp [attempt, write, different]
    have results : (rest.map fun other =>
        (other, (attempt bytes outcome (write client bytes (outcome client) state).2 other).1)) =
        rest.map fun other => (other, (attempt bytes outcome state other).1) :=
      List.map_congr_left fun other member => by rw [others other member]
    have kept : (rest.filter fun other =>
        (attempt bytes outcome (write client bytes (outcome client) state).2 other).1) =
        rest.filter fun other => (attempt bytes outcome state other).1 :=
      List.filter_congr fun other member => by rw [others other member]
    rw [sweep, ih _ distinct, results, kept]
    refine Prod.ext ?_ ?_
    · rw [List.filter_cons]
      rfl
    · simp only [write, State.mk.injEq, List.map_cons, List.append_assoc, List.singleton_append, true_and]
      refine ⟨?_, rfl⟩
      funext other
      by_cases same : other = client
      · subst same
        simp [absent, attempt]
      · by_cases member : other ∈ rest
        · have unchanged := others other member
          simp only [write] at unchanged
          simp [member, unchanged]
        · simp [member, same]

/-- One round, without the loop: each listed client is written to once, and
exactly those whose write succeeded stay, in place. -/
theorem broadcast_eq (bytes : Bytes) (outcome : Nat → WriteOutcome) (state : State) (distinct : state.clients.Nodup) :
    broadcast bytes outcome state =
      { state with
        clients := state.clients.filter fun client => (attempt bytes outcome state client).1
        sockets := fun client =>
          if client ∈ state.clients then (attempt bytes outcome state client).2 else state.sockets client
        writes := state.writes ++
          state.clients.map fun client => (client, (attempt bytes outcome state client).1) } := by
  rw [broadcast, retainLoop_eq_sweep, sweep_write bytes outcome state.clients state distinct]

def connects (steps : List Step) : List Bool :=
  steps.filterMap fun action => match action with
    | .connect bannerOn => some bannerOn
    | _ => none

def pushes (steps : List Step) : Nat := steps.count .push

def messages (steps : List Step) : List Bytes :=
  steps.filterMap fun action => match action with
    | .broadcast bytes => some bytes
    | _ => none

/-- The messages broadcast after a client was accepted into the list. Clients
are pushed in the order of their numbers. -/
def messagesAfter : Nat → List Step → List Bytes
  | _, [] => []
  | 0, .push :: rest => messages rest
  | client + 1, .push :: rest => messagesAfter client rest
  | client, .connect _ :: rest => messagesAfter client rest
  | client, .broadcast _ :: rest => messagesAfter client rest

def bannerOf (client : Nat) (steps : List Step) : Bytes :=
  if (connects steps)[client]? = some true then banner else []

def owed (client : Nat) (steps : List Step) : Bytes :=
  bannerOf client steps ++ (messagesAfter client steps).flatten

theorem messages_append (steps : List Step) (action : Step) :
    messages (steps ++ [action]) = messages steps ++ messages [action] := by
  simp [messages]

@[simp] private theorem pushes_append (steps : List Step) (action : Step) :
    pushes (steps ++ [action]) = pushes steps + pushes [action] := List.count_append

private theorem pushes_cons (first : Step) (rest : List Step) : pushes (first :: rest) = pushes [first] + pushes rest := by
  rw [← List.singleton_append]
  exact List.count_append

private theorem messagesAfter_append {client : Nat} {steps : List Step} (pushed : client < pushes steps) (action : Step) :
    messagesAfter client (steps ++ [action]) = messagesAfter client steps ++ messages [action] := by
  induction steps generalizing client with
  | nil => cases pushed
  | cons first rest ih =>
    rw [pushes_cons] at pushed
    cases first with
    | connect bannerOn => exact ih (by simpa [pushes] using pushed)
    | broadcast bytes => exact ih (by simpa [pushes] using pushed)
    | push =>
      cases client with
      | zero => exact messages_append rest action
      | succ client => exact ih (by simp only [show pushes [.push] = 1 from rfl] at pushed; omega)

private theorem messagesAfter_waiting {client : Nat} {steps : List Step} (waiting : pushes steps ≤ client) (action : Step) :
    messagesAfter client steps = [] ∧ messagesAfter client (steps ++ [action]) = [] := by
  induction steps generalizing client with
  | nil => cases action <;> cases client <;> exact ⟨rfl, rfl⟩
  | cons first rest ih =>
    rw [pushes_cons] at waiting
    cases first with
    | connect bannerOn => exact ih (by simpa [pushes] using waiting)
    | broadcast bytes => exact ih (by simpa [pushes] using waiting)
    | push =>
      simp only [show pushes [.push] = 1 from rfl] at waiting
      cases client with
      | zero => omega
      | succ client => exact ih (by omega)

theorem connects_append (steps : List Step) (action : Step) :
    connects (steps ++ [action]) = connects steps ++ connects [action] := by
  simp [connects]

private theorem bannerOf_append {client : Nat} {steps : List Step} (accepted : client < (connects steps).length)
    (action : Step) : bannerOf client (steps ++ [action]) = bannerOf client steps := by
  simp [bannerOf, connects_append, List.getElem?_append_left accepted]

/-- What holds of the daemon's state after the given steps. -/
structure Delivered (steps : List Step) (state : State) : Prop where
  accepted : state.accepted = (connects steps).length
  pushed : pushes steps = state.pending.getD state.accepted
  pending : ∀ client, state.pending = some client → client + 1 = state.accepted
  distinct : state.clients.Nodup
  listed : ∀ client ∈ state.clients, client < pushes steps
  fresh : ∀ client, state.accepted ≤ client → state.sockets client = {}
  /-- An unbroken stream has had everything, and is still listed once pushed. -/
  whole : ∀ client < state.accepted, (state.sockets client).broken = false →
    (state.sockets client).received = owed client steps ∧ (client < pushes steps → client ∈ state.clients)
  /-- A broken stream stopped at a failed write of its own. -/
  cut : ∀ client < state.accepted, (state.sockets client).broken = true →
    (state.sockets client).received <+: owed client steps ∧ (client, false) ∈ state.writes

theorem delivered_initial : Delivered [] {} :=
  ⟨rfl, rfl, by simp, List.nodup_nil, by simp, by simp, by simp, by simp⟩

theorem Delivered.pushed_le {steps : List Step} {state : State} (valid : Delivered steps state) :
    pushes steps ≤ state.accepted := by
  rw [valid.pushed]
  cases waiting : state.pending with
  | none => exact Nat.le_refl _
  | some client =>
    have := valid.pending client waiting
    simp only [Option.getD_some]
    omega

private theorem writeAll_whole {socket : Socket} {bytes : Bytes} {outcome : WriteOutcome}
    (intact : (socket.writeAll bytes outcome).2.broken = false) :
    socket.broken = false ∧ (socket.writeAll bytes outcome).1 = true ∧
      (socket.writeAll bytes outcome).2.received = socket.received ++ bytes := by
  obtain ⟨received, broken⟩ := socket
  cases broken with
  | true => cases intact
  | false =>
    cases outcome with
    | complete => exact ⟨rfl, rfl, rfl⟩
    | fails written => cases intact

/-- A stream that is broken after a write was broken already, or broke in it. -/
private theorem writeAll_cut {socket : Socket} {bytes : Bytes} {outcome : WriteOutcome}
    (broken : (socket.writeAll bytes outcome).2.broken = true) :
    (socket.broken = true ∧ (socket.writeAll bytes outcome).2 = socket) ∨
      (socket.broken = false ∧ (socket.writeAll bytes outcome).1 = false ∧
        (socket.writeAll bytes outcome).2.received <+: socket.received ++ bytes) := by
  obtain ⟨received, before⟩ := socket
  cases before with
  | true => exact Or.inl ⟨rfl, rfl⟩
  | false =>
    cases outcome with
    | complete => cases broken
    | fails written => exact Or.inr ⟨rfl, rfl, (List.prefix_append_right_inj _).mpr (List.take_prefix _ _)⟩

private theorem owed_pushed {client : Nat} {steps : List Step} (accepted : client < (connects steps).length)
    (pushed : client < pushes steps) (action : Step) :
    owed client (steps ++ [action]) = owed client steps ++ (messages [action]).flatten := by
  simp [owed, bannerOf_append accepted, messagesAfter_append pushed]

private theorem owed_waiting {client : Nat} {steps : List Step} (accepted : client < (connects steps).length)
    (waiting : pushes steps ≤ client) (action : Step) : owed client (steps ++ [action]) = owed client steps := by
  have nothing := messagesAfter_waiting waiting action
  simp [owed, bannerOf_append accepted, nothing.1, nothing.2]

private theorem owed_extends {client : Nat} {steps : List Step} (accepted : client < (connects steps).length)
    (action : Step) : owed client steps <+: owed client (steps ++ [action]) := by
  by_cases pushed : client < pushes steps
  · rw [owed_pushed accepted pushed]
    exact List.prefix_append _ _
  · rw [owed_waiting accepted (Nat.le_of_not_lt pushed)]

private theorem owed_connect {steps : List Step} {client : Nat} (next : client = (connects steps).length)
    (waiting : pushes steps ≤ client) (bannerOn : Bool) :
    owed client (steps ++ [.connect bannerOn]) = if bannerOn then banner else [] := by
  have nothing := (messagesAfter_waiting waiting (.connect bannerOn)).2
  have flag : (connects (steps ++ [.connect bannerOn]))[client]? = some bannerOn := by
    rw [connects_append, List.getElem?_append_right (by omega), next, Nat.sub_self]
    rfl
  simp [owed, bannerOf, flag, nothing]

/-- A broken stream stays within what is owed, however the run goes on. -/
private theorem Delivered.cut_extends {steps : List Step} {state : State} (valid : Delivered steps state) {client : Nat}
    (small : client < state.accepted) (broken : (state.sockets client).broken = true) (action : Step) :
    (state.sockets client).received <+: owed client (steps ++ [action]) ∧ (client, false) ∈ state.writes := by
  have length := valid.accepted
  obtain ⟨received, failed⟩ := valid.cut client small broken
  exact ⟨received.trans (owed_extends (by omega) action), failed⟩

private theorem owed_silent {client : Nat} {steps : List Step} (accepted : client < (connects steps).length)
    {action : Step} (silent : messages [action] = []) : owed client (steps ++ [action]) = owed client steps := by
  by_cases pushed : client < pushes steps
  · rw [owed_pushed accepted pushed, silent, List.flatten_nil, List.append_nil]
  · exact owed_waiting accepted (Nat.le_of_not_lt pushed) action

/-- A connect touches the new client's stream, which has its banner or broke in it,
and the write log. -/
private theorem connect_cases {state next : State} {bannerOn : Bool} {outcome : Nat → WriteOutcome}
    (empty : state.sockets state.accepted = {}) (stepped : step outcome state (.connect bannerOn) = some next) :
    state.pending = none ∧ ∃ socket log,
      next = { state with
        sockets := Function.update state.sockets state.accepted socket
        accepted := state.accepted + 1
        pending := some state.accepted
        writes := state.writes ++ log } ∧
      (socket.broken = false → socket.received = if bannerOn then banner else []) ∧
      (socket.broken = true → socket.received <+: (if bannerOn then banner else []) ∧
        (state.accepted, false) ∈ log) := by
  have idle : state.pending = none := by
    cases waiting : state.pending with
    | none => rfl
    | some client => simp [step, waiting] at stepped
  simp only [step, idle, Option.isSome_none, Bool.false_eq_true, ↓reduceIte, Option.some.injEq] at stepped
  refine ⟨idle, ?_⟩
  cases bannerOn with
  | false =>
    refine ⟨{}, [], ?_, fun _ => rfl, fun broken => by cases broken⟩
    rw [← stepped]
    simp [← empty]
  | true =>
    refine ⟨(({} : Socket).writeAll banner (outcome state.accepted)).2,
      [(state.accepted, (({} : Socket).writeAll banner (outcome state.accepted)).1)], ?_, ?_, ?_⟩
    · rw [← stepped]
      simp [write, empty]
    · intro intact
      exact (writeAll_whole intact).2.2
    · intro broken
      rcases writeAll_cut broken with ⟨before, _⟩ | ⟨_, failed, front⟩
      · cases before
      · exact ⟨front, by simp [failed]⟩

private theorem connect_preserves {steps : List Step} {state next : State} {bannerOn : Bool}
    {outcome : Nat → WriteOutcome} (valid : Delivered steps state)
    (stepped : step outcome state (.connect bannerOn) = some next) : Delivered (steps ++ [.connect bannerOn]) next := by
  obtain ⟨idle, socket, log, rfl, content, broke⟩ := connect_cases (valid.fresh _ (Nat.le_refl _)) stepped
  have counted : pushes steps = state.accepted := by rw [valid.pushed, idle]; rfl
  have samePushes : pushes (steps ++ [.connect bannerOn]) = pushes steps := by simp [pushes]
  have length := valid.accepted
  have grown : (connects (steps ++ [.connect bannerOn])).length = state.accepted + 1 := by
    rw [connects_append, List.length_append, ← length]
    rfl
  have debt := owed_connect length (by omega) bannerOn
  refine ⟨grown.symm, ?_, ?_, valid.distinct, ?_, ?_, ?_, ?_⟩
  · rw [samePushes, counted]; rfl
  · rintro client same
    cases same
    rfl
  · intro client member
    rw [samePushes]
    exact valid.listed client member
  · intro client later
    have different : client ≠ state.accepted := by simp only at later; omega
    simpa [different] using valid.fresh client (by simp only at later; omega)
  · intro client small intact
    rw [samePushes]
    by_cases same : client = state.accepted
    · subst same
      simp only [Function.update_self] at intact ⊢
      exact ⟨debt ▸ content intact, fun pushed => by omega⟩
    · simp only [Function.update_of_ne same] at intact ⊢
      obtain ⟨received, kept⟩ := valid.whole client (by simp only at small; omega) intact
      exact ⟨by rw [received, owed_silent (by simp only at small; omega) rfl], kept⟩
  · intro client small broken
    by_cases same : client = state.accepted
    · subst same
      simp only [Function.update_self] at broken ⊢
      exact ⟨debt ▸ (broke broken).1, List.mem_append.mpr (Or.inr (broke broken).2)⟩
    · simp only [Function.update_of_ne same] at broken ⊢
      obtain ⟨received, failed⟩ := valid.cut_extends (by simp only at small; omega) broken (.connect bannerOn)
      exact ⟨received, List.mem_append.mpr (Or.inl failed)⟩

private theorem push_preserves {steps : List Step} {state next : State} {outcome : Nat → WriteOutcome}
    (valid : Delivered steps state) (stepped : step outcome state .push = some next) :
    Delivered (steps ++ [.push]) next := by
  simp only [step, Option.map_eq_some_iff] at stepped
  obtain ⟨client, waiting, rfl⟩ := stepped
  have last := valid.pending client waiting
  have counted : pushes steps = client := by rw [valid.pushed, waiting]; rfl
  have grown : pushes (steps ++ [.push]) = client + 1 := by rw [pushes_append, counted]; rfl
  have length := valid.accepted
  have sameConnects : (connects (steps ++ [.push])).length = (connects steps).length := by simp [connects]
  have debt : ∀ other < state.accepted, owed other (steps ++ [.push]) = owed other steps :=
    fun other small => owed_silent (by omega) rfl
  refine ⟨by rw [sameConnects]; exact length, ?_, by simp, ?_, ?_, valid.fresh, ?_, ?_⟩
  · rw [grown]; exact last
  · have absent : client ∉ state.clients := fun member => by
      have := valid.listed client member
      omega
    rw [List.nodup_append]
    refine ⟨valid.distinct, by simp, ?_⟩
    intro other member single same
    obtain rfl : single = client := by simpa using same
    rintro rfl
    exact absent member
  · intro other member
    rw [grown]
    rcases List.mem_append.mp member with old | new
    · have := valid.listed other old
      omega
    · obtain rfl : other = client := by simpa using new
      omega
  · intro other small intact
    obtain ⟨received, kept⟩ := valid.whole other small intact
    refine ⟨by rw [debt other small]; exact received, fun pushed => ?_⟩
    rw [grown] at pushed
    by_cases same : other = client
    · simp [same]
    · exact List.mem_append.mpr (Or.inl (kept (by omega)))
  · intro other small broken
    rw [debt other small]
    exact valid.cut other small broken

private theorem broadcast_preserves {steps : List Step} {state : State} (valid : Delivered steps state)
    (bytes : Bytes) (outcome : Nat → WriteOutcome) :
    Delivered (steps ++ [.broadcast bytes]) (broadcast bytes outcome state) := by
  have length := valid.accepted
  have sameConnects : (connects (steps ++ [.broadcast bytes])).length = (connects steps).length := by simp [connects]
  have samePushes : pushes (steps ++ [.broadcast bytes]) = pushes steps := by simp [pushes]
  have limit := valid.pushed_le
  have debt : ∀ client < pushes steps, owed client (steps ++ [.broadcast bytes]) = owed client steps ++ bytes := by
    intro client pushed
    rw [owed_pushed (by omega) pushed]
    simp [messages]
  rw [broadcast_eq bytes outcome state valid.distinct]
  refine ⟨by rw [sameConnects]; exact length, by rw [samePushes]; exact valid.pushed, valid.pending,
    valid.distinct.filter _, ?_, ?_, ?_, ?_⟩
  · intro client member
    rw [samePushes]
    exact valid.listed client (List.mem_filter.mp member).1
  · intro client later
    have absent : client ∉ state.clients := fun member => by
      have := valid.listed client member
      simp only at later
      omega
    simpa [absent] using valid.fresh client later
  · intro client small intact
    rw [samePushes]
    simp only at small intact ⊢
    by_cases member : client ∈ state.clients
    · have pushed := valid.listed client member
      simp only [member, ↓reduceIte] at intact ⊢
      obtain ⟨before, succeeded, content⟩ := writeAll_whole intact
      refine ⟨?_, fun _ => List.mem_filter.mpr ⟨member, succeeded⟩⟩
      rw [debt client pushed, ← (valid.whole client small before).1]
      exact content
    · simp only [member, ↓reduceIte] at intact ⊢
      obtain ⟨received, kept⟩ := valid.whole client small intact
      have waiting : pushes steps ≤ client := Nat.le_of_not_lt fun pushed => member (kept pushed)
      exact ⟨by rw [received, owed_waiting (by omega) waiting], fun pushed => absurd (kept pushed) member⟩
  · intro client small broken
    simp only at small broken ⊢
    by_cases member : client ∈ state.clients
    · have pushed := valid.listed client member
      simp only [member, ↓reduceIte] at broken ⊢
      rcases writeAll_cut broken with ⟨before, after⟩ | ⟨before, failed, front⟩
      · obtain ⟨received, logged⟩ := valid.cut_extends small before (.broadcast bytes)
        rw [attempt, after]
        exact ⟨received, List.mem_append.mpr (Or.inl logged)⟩
      · rw [debt client pushed, ← (valid.whole client small before).1]
        refine ⟨front, List.mem_append.mpr (Or.inr (List.mem_map.mpr ⟨client, member, ?_⟩))⟩
        rw [attempt, failed]
    · simp only [member, ↓reduceIte] at broken ⊢
      obtain ⟨received, logged⟩ := valid.cut_extends small broken (.broadcast bytes)
      exact ⟨received, List.mem_append.mpr (Or.inl logged)⟩

/-- One step of either loop keeps the delivery invariant. -/
theorem step_preserves {steps : List Step} {state next : State} {outcome : Nat → WriteOutcome} {action : Step}
    (valid : Delivered steps state) (stepped : step outcome state action = some next) :
    Delivered (steps ++ [action]) next := by
  cases action with
  | connect bannerOn => exact connect_preserves valid stepped
  | push => exact push_preserves valid stepped
  | broadcast bytes =>
    obtain rfl : broadcast bytes outcome state = next := by simpa [step] using stepped
    exact broadcast_preserves valid bytes outcome

private theorem runFrom_append (oracle : Nat → Nat → WriteOutcome) (k : Nat) (state : State) (steps : List Step)
    (action : Step) :
    runFrom oracle k state (steps ++ [action]) =
      (runFrom oracle k state steps).bind fun next => step (oracle (k + steps.length)) next action := by
  induction steps generalizing k state with
  | nil => cases found : step (oracle k) state action <;> simp [runFrom, found]
  | cons first rest ih =>
    cases found : step (oracle k) state first with
    | none => simp [runFrom, found]
    | some next =>
      simp only [List.cons_append, runFrom, found, Option.bind_some, ih, List.length_cons]
      rw [show k + 1 + rest.length = k + (rest.length + 1) by omega]

theorem run_append (oracle : Nat → Nat → WriteOutcome) (steps : List Step) (action : Step) :
    run oracle (steps ++ [action]) =
      (run oracle steps).bind fun state => step (oracle steps.length) state action := by
  simpa [run] using runFrom_append oracle 0 {} steps action

theorem run_delivered {oracle : Nat → Nat → WriteOutcome} {steps : List Step} {state : State}
    (ran : run oracle steps = some state) : Delivered steps state := by
  induction steps using List.reverseRecOn generalizing state with
  | nil =>
    cases ran
    exact delivered_initial
  | append_singleton steps action ih =>
    rw [run_append, Option.bind_eq_some_iff] at ran
    obtain ⟨before, earlier, stepped⟩ := ran
    exact step_preserves (ih earlier) stepped

/-- Two states that one client cannot tell apart. -/
structure SameFor (client : Nat) (state other : State) : Prop where
  accepted : state.accepted = other.accepted
  pending : state.pending = other.pending
  socket : state.sockets client = other.sockets client
  listed : client ∈ state.clients ↔ client ∈ other.clients

private theorem step_sameFor {client : Nat} {state other next : State} {outcome outcome' : Nat → WriteOutcome}
    {action : Step} (distinct : state.clients.Nodup) (distinct' : other.clients.Nodup)
    (same : SameFor client state other) (agree : outcome client = outcome' client)
    (stepped : step outcome state action = some next) :
    ∃ next', step outcome' other action = some next' ∧ SameFor client next next' := by
  cases action with
  | connect bannerOn =>
    simp only [step] at stepped ⊢
    rw [← same.pending]
    split at stepped
    · cases stepped
    next idle =>
      simp only [Option.some.injEq] at stepped
      subst stepped
      refine ⟨_, by rw [if_neg idle], ?_⟩
      rw [← same.accepted]
      cases bannerOn with
      | false => exact ⟨rfl, rfl, same.socket, same.listed⟩
      | true =>
        refine ⟨rfl, rfl, ?_, same.listed⟩
        by_cases own : client = state.accepted
        · subst own
          simp [write, same.socket, agree]
        · simp [write, own, same.socket]
  | push =>
    simp only [step, Option.map_eq_some_iff] at stepped ⊢
    obtain ⟨waiting, found, rfl⟩ := stepped
    refine ⟨_, ⟨waiting, same.pending ▸ found, rfl⟩, same.accepted, rfl, same.socket, ?_⟩
    simp only [List.mem_append, same.listed]
  | broadcast bytes =>
    obtain rfl : broadcast bytes outcome state = next := by simpa [step] using stepped
    refine ⟨broadcast bytes outcome' other, rfl, ?_⟩
    have result : attempt bytes outcome state client = attempt bytes outcome' other client := by
      rw [attempt, attempt, same.socket, agree]
    rw [broadcast_eq bytes outcome state distinct, broadcast_eq bytes outcome' other distinct']
    refine ⟨same.accepted, same.pending, ?_, ?_⟩
    · simp only [same.listed, result, same.socket]
    · simp only [List.mem_filter, same.listed, result]

/-- A client's stream depends on its own write outcomes only. -/
theorem run_sameFor {oracle oracle' : Nat → Nat → WriteOutcome} {client : Nat}
    (agree : ∀ k, oracle k client = oracle' k client) {steps : List Step} {state : State}
    (ran : run oracle steps = some state) : ∃ other, run oracle' steps = some other ∧ SameFor client state other := by
  induction steps using List.reverseRecOn generalizing state with
  | nil =>
    cases ran
    exact ⟨{}, rfl, rfl, rfl, rfl, Iff.rfl⟩
  | append_singleton steps action ih =>
    rw [run_append, Option.bind_eq_some_iff] at ran
    obtain ⟨before, earlier, stepped⟩ := ran
    obtain ⟨before', earlier', same⟩ := ih earlier
    obtain ⟨next, stepped', same'⟩ := step_sameFor (run_delivered earlier).distinct (run_delivered earlier').distinct
      same (agree _) stepped
    exact ⟨next, by rw [run_append, earlier']; exact stepped', same'⟩

/-- Delivery under any interleaving and any pattern of write failures: every
client has a prefix of what it is owed, all of it unless one of its own writes
failed; each round writes to every listed client once and keeps exactly the
successful ones; and the other clients' failures change nothing for it. -/
theorem broadcast_delivery (oracle : Nat → Nat → WriteOutcome) (steps : List Step) (state : State)
    (ran : run oracle steps = some state) :
    (∀ client < state.accepted,
      (state.sockets client).received <+: owed client steps ∧
      ((∀ ok, (client, ok) ∈ state.writes → ok = true) → (state.sockets client).received = owed client steps)) ∧
    (∀ bytes outcome, ∃ attempts : List (Nat × Bool),
      (broadcast bytes outcome state).writes = state.writes ++ attempts ∧
      attempts.map Prod.fst = state.clients ∧ (attempts.map Prod.fst).Nodup ∧
      (broadcast bytes outcome state).clients = (attempts.filter Prod.snd).map Prod.fst) ∧
    (∀ client oracle', (∀ k, oracle' k client = oracle k client) →
      ∃ other, run oracle' steps = some other ∧
        (other.sockets client).received = (state.sockets client).received) := by
  have valid := run_delivered ran
  refine ⟨fun client small => ?_, fun bytes outcome => ?_, fun client oracle' agree => ?_⟩
  · cases broken : (state.sockets client).broken with
    | false =>
      have received := (valid.whole client small broken).1
      exact ⟨by rw [received], fun _ => received⟩
    | true =>
      obtain ⟨received, failed⟩ := valid.cut client small broken
      exact ⟨received, fun succeeded => absurd (succeeded false failed) (by simp)⟩
  · refine ⟨state.clients.map fun client => (client, (attempt bytes outcome state client).1), ?_, ?_, ?_, ?_⟩
    · rw [broadcast_eq bytes outcome state valid.distinct]
    · simp [Function.comp_def]
    · simpa [Function.comp_def] using valid.distinct
    · rw [broadcast_eq bytes outcome state valid.distinct, List.filter_map, List.map_map]
      simp [Function.comp_def]
  · obtain ⟨other, ran', same⟩ := run_sameFor (fun k => (agree k).symm) ran
    exact ⟨other, ran', congrArg Socket.received same.socket.symm⟩

def sampleSteps : List Step := [.connect true, .push, .connect false, .push, .broadcast [104, 105, 10]]

def sampleOracle (k client : Nat) : WriteOutcome := if k = 0 ∧ client = 0 then .fails 3 else .complete

theorem broadcast_delivery_two_clients :
    ∃ state, run sampleOracle sampleSteps = some state ∧
      (state.sockets 0).received <+: owed 0 sampleSteps ∧ (state.sockets 1).received <+: owed 1 sampleSteps := by
  have enabled : (run sampleOracle sampleSteps).isSome = true := rfl
  obtain ⟨state, ran⟩ := Option.isSome_iff_exists.mp enabled
  have accepted : state.accepted = 2 := (run_delivered ran).accepted
  have delivery := (broadcast_delivery sampleOracle sampleSteps state ran).1
  exact ⟨state, ran, (delivery 0 (by omega)).1, (delivery 1 (by omega)).1⟩

end HawkTui.Proofs.Broadcast
