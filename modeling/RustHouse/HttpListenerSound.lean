import Mathlib.Data.List.Nodup
import Mathlib.Data.List.Perm.Basic
import Mathlib.Data.List.Range
import RustHouse.HttpListener

/-!
# Bookkeeping of concurrent listeners

Every accepted connection is either in flight or recorded, and never both: the
invariant ties the workers, the channel and the report together, and each step
of a worker or of either listener keeps it.
-/

namespace RustHouse.Http

variable {ε : Type}

/-! ## Receiving a completion -/

theorem swapRemove_perm {α : Type} {elements : List α} {index : Nat} {element : α}
    (h : elements[index]? = some element) : elements.Perm (element :: swapRemove elements index) := by
  obtain rfl | ⟨front, last, rfl⟩ := List.eq_nil_or_concat' elements
  · cases h
  · have hswap : swapRemove (front ++ [last]) index = ((front ++ [last]).set index last).dropLast := by
      rw [swapRemove, List.getLast?_concat]
    rw [hswap]
    by_cases hfront : index < front.length
    · rw [List.getElem?_append_left hfront] at h
      obtain ⟨_, rfl⟩ := List.getElem?_eq_some_iff.1 h
      rw [List.set_append_left _ _ hfront, List.dropLast_concat]
      calc (front ++ [last]).Perm (last :: front) := List.perm_append_singleton last front
        _ |>.Perm (last :: front[index] :: front.eraseIdx index) :=
          ((List.getElem_cons_eraseIdx_perm hfront).symm).cons last
        _ |>.Perm (front[index] :: last :: front.eraseIdx index) := List.Perm.swap _ _ _
        _ |>.Perm (front[index] :: front.set index last) := ((List.set_perm_cons_eraseIdx hfront last).symm).cons _
    · have hlen := (List.getElem?_eq_some_iff.1 h).1
      rw [List.length_append, List.length_singleton] at hlen
      have hindex : index = front.length := by omega
      subst hindex
      rw [List.getElem?_concat_length] at h
      obtain rfl := Option.some.inj h
      rw [List.set_append_right _ _ (Nat.le_refl _), Nat.sub_self, List.set_cons_zero, List.dropLast_concat]
      exact List.perm_append_singleton _ _

theorem findIdx_worker {workers : List (Nat × WorkerThread)} {connection : Nat} {thread : WorkerThread}
    (hnodup : (workers.map Prod.fst).Nodup) (h : (connection, thread) ∈ workers) :
    ∃ position, workers.findIdx? (fun worker => worker.1 == connection) = some position ∧
      workers[position]? = some (connection, thread) := by
  induction workers with
  | nil => cases h
  | cons worker workers ih =>
    rw [List.map_cons, List.nodup_cons] at hnodup
    rw [List.findIdx?_cons]
    rcases List.mem_cons.1 h with rfl | hmem
    · exact ⟨0, by simp, rfl⟩
    · obtain ⟨position, hfound, hworker⟩ := ih hnodup.2 hmem
      have hother : ¬ worker.1 = connection := fun heq => hnodup.1 (List.mem_map.2 ⟨_, hmem, heq.symm⟩)
      refine ⟨position + 1, ?_, hworker⟩
      rw [if_neg (by simpa using hother), hfound]
      rfl

theorem finish_cases {connection : Nat} {exchange : Option (Except ε Unit)} {workers : List (Nat × WorkerThread)}
    {report : HttpListenerReport ε} {thread : WorkerThread}
    {result : Except ListenerPanic (List (Nat × WorkerThread) × HttpListenerReport ε)}
    (hnodup : (workers.map Prod.fst).Nodup) (hworker : (connection, thread) ∈ workers)
    (hreported : thread.reported = some exchange.isNone)
    (h : finishHttpListenerCompletion (connection, exchange) workers report = some result) :
    exchange = none ∧ result = .error (.worker connection) ∨
      ∃ outcome rest, exchange = some outcome ∧ workers.Perm ((connection, .ended false) :: rest) ∧
        result = .ok (rest, recordHttpListenerExchange report connection outcome) := by
  obtain ⟨position, hfound, hposition⟩ := findIdx_worker hnodup hworker
  simp only [finishHttpListenerCompletion, hfound, hposition] at h
  cases thread with
  | running => cases hreported
  | sent panicking => cases h
  | ended panicked =>
    obtain rfl := Option.some.inj hreported
    cases exchange with
    | none => exact .inl ⟨rfl, (Option.some.inj h).symm⟩
    | some outcome => exact .inr ⟨outcome, _, rfl, swapRemove_perm hposition, (Option.some.inj h).symm⟩

/-! ## The books -/

def WorkerThread.holdsSender : WorkerThread → Bool
  | ended _ => false
  | _ => true

namespace Listening

/-- How the workers, the channel and the report of a listener fit together. -/
structure Books (s : Listening ε) : Prop where
  /-- Every accepted connection is recorded or in flight. -/
  accounted : (s.recorded ++ s.workers.map Prod.fst).Perm (List.range' 1 s.report.acceptedConnections)
  reported : ∀ completion ∈ s.completions,
    ∃ thread, (completion.1, thread) ∈ s.workers ∧ thread.reported = some completion.2.isNone
  once : (s.completions.map Prod.fst).Nodup
  awaited : ∀ worker ∈ s.workers, worker.2 = .running ∨ worker.1 ∈ s.completions.map Prod.fst
  senders : s.senders = s.workers.countP (fun worker => worker.2.holdsSender) + 1
  counted : s.report.successfulExchanges + s.report.connectionFailures.length = s.recorded.length
  failures : (s.report.connectionFailures.map HttpConnectionFailure.connection).Sublist s.recorded
  panics : ∀ completion ∈ s.completions, completion.2 = none → completion.1 ∈ s.panicked

section
variable {s : Listening ε}

theorem Books.nodup (h : Books s) : (s.recorded ++ s.workers.map Prod.fst).Nodup :=
  h.accounted.nodup_iff.2 List.nodup_range'

theorem Books.nodup_workers (h : Books s) : (s.workers.map Prod.fst).Nodup := h.nodup.of_append_right

theorem Books.elsewhere (h : Books s) (point : ListenerPoint ε) (stopRequested : Bool) (acceptFailure : Option IoError)
    (stopObserved : Bool) : Books { s with point, stopRequested, acceptFailure, stopObserved } :=
  ⟨h.accounted, h.reported, h.once, h.awaited, h.senders, h.counted, h.failures, h.panics⟩

theorem Books.worker_unique (h : Books s) {before after : List (Nat × WorkerThread)} {connection : Nat}
    {thread thread' : WorkerThread} (hworkers : s.workers = before ++ (connection, thread) :: after)
    (hmem : (connection, thread') ∈ s.workers) : thread' = thread := by
  have hnodup := h.nodup_workers
  rw [hworkers] at hmem hnodup
  rw [List.map_append, List.map_cons, List.nodup_middle, List.nodup_cons, ← List.map_append] at hnodup
  rcases List.mem_append.1 hmem with hbefore | hafter
  · exact absurd (List.mem_map_of_mem (List.mem_append_left _ hbefore)) hnodup.1
  · rcases List.mem_cons.1 hafter with heq | hafter
    · exact congrArg Prod.snd heq
    · exact absurd (List.mem_map_of_mem (List.mem_append_right _ hafter)) hnodup.1

theorem map_fst_replace (before after : List (Nat × WorkerThread)) (connection : Nat) (thread thread' : WorkerThread) :
    (before ++ (connection, thread') :: after).map Prod.fst = (before ++ (connection, thread) :: after).map Prod.fst := by
  simp only [List.map_append, List.map_cons]

theorem mem_replace {before after : List (Nat × WorkerThread)} {worker replaced replacing : Nat × WorkerThread}
    (hmem : worker ∈ before ++ replaced :: after) (hne : worker ≠ replaced) :
    worker ∈ before ++ replacing :: after := by
  rcases List.mem_append.1 hmem with hbefore | hafter
  · exact List.mem_append_left _ hbefore
  · rcases List.mem_cons.1 hafter with heq | hafter
    · exact absurd heq hne
    · exact List.mem_append_right _ (List.mem_cons_of_mem _ hafter)

theorem Books.send (h : Books s) {before after : List (Nat × WorkerThread)} {connection : Nat}
    (exchange : Option (Except ε Unit)) (hworkers : s.workers = before ++ (connection, .running) :: after) :
    Books { s with
      workers := before ++ (connection, .sent exchange.isNone) :: after
      completions := s.completions ++ [(connection, exchange)]
      panicked := if exchange.isNone then connection :: s.panicked else s.panicked } := by
  -- The worker still runs, so nothing of it is in the channel.
  have hfresh : ∀ completion ∈ s.completions, completion.1 ≠ connection := by
    rintro ⟨_, exchange'⟩ hmem rfl
    obtain ⟨thread, hthread, hreported⟩ := h.reported _ hmem
    rw [h.worker_unique hworkers hthread] at hreported
    cases hreported
  have haccounted := h.accounted
  have hawaited := h.awaited
  have hsenders := h.senders
  rw [hworkers] at haccounted hawaited hsenders
  refine ⟨map_fst_replace before after connection .running _ ▸ haccounted, ?_, ?_, ?_, ?_, h.counted, h.failures, ?_⟩
  · intro completion hmem
    rcases List.mem_append.1 hmem with hold | hnew
    · obtain ⟨thread, hthread, hreported⟩ := h.reported completion hold
      rw [hworkers] at hthread
      exact ⟨thread, mem_replace hthread fun heq => hfresh completion hold (congrArg Prod.fst heq), hreported⟩
    · rw [List.mem_singleton.1 hnew]
      exact ⟨_, List.mem_append_right _ List.mem_cons_self, rfl⟩
  · show ((s.completions ++ [(connection, exchange)]).map Prod.fst).Nodup
    rw [List.map_append]
    refine h.once.append (List.nodup_singleton _) ?_
    intro other hother hnew
    obtain ⟨completion, hmem, rfl⟩ := List.mem_map.1 hother
    exact hfresh completion hmem (List.mem_singleton.1 hnew)
  · intro worker hmem
    show _ ∨ worker.1 ∈ (s.completions ++ [(connection, exchange)]).map Prod.fst
    rw [List.map_append]
    by_cases heq : worker = (connection, .sent exchange.isNone)
    · rw [heq]
      exact .inr (List.mem_append_right _ (List.mem_singleton.2 rfl))
    · rcases hawaited worker (mem_replace hmem heq) with hrunning | hcompleted
      · exact .inl hrunning
      · exact .inr (List.mem_append_left _ hcompleted)
  · show s.senders = _
    rw [hsenders, List.countP_append, List.countP_append, List.countP_cons, List.countP_cons]
    rfl
  · intro completion hmem hnone
    rcases List.mem_append.1 hmem with hold | hnew
    · have := h.panics completion hold hnone
      show _ ∈ if _ then _ else _
      split
      · exact List.mem_cons_of_mem _ this
      · exact this
    · obtain rfl := List.mem_singleton.1 hnew
      obtain rfl : exchange = none := hnone
      exact List.mem_cons_self

theorem Books.exit (h : Books s) {before after : List (Nat × WorkerThread)} {connection : Nat} {panicking : Bool}
    (hworkers : s.workers = before ++ (connection, .sent panicking) :: after) :
    Books { s with workers := before ++ (connection, .ended panicking) :: after, senders := s.senders - 1 } := by
  have haccounted := h.accounted
  have hawaited := h.awaited
  have hsenders := h.senders
  rw [hworkers] at haccounted hawaited hsenders
  refine ⟨map_fst_replace before after connection (.sent panicking) _ ▸ haccounted, ?_, h.once, ?_, ?_, h.counted,
    h.failures, h.panics⟩
  · intro completion hmem
    obtain ⟨thread, hthread, hreported⟩ := h.reported completion hmem
    by_cases heq : completion.1 = connection
    · rw [heq] at hthread ⊢
      rw [h.worker_unique hworkers hthread] at hreported
      exact ⟨_, List.mem_append_right _ List.mem_cons_self, hreported⟩
    · rw [hworkers] at hthread
      exact ⟨thread, mem_replace hthread fun heq' => heq (congrArg Prod.fst heq'), hreported⟩
  · intro worker hmem
    by_cases heq : worker = (connection, .ended panicking)
    · rw [heq]
      rcases hawaited (connection, .sent panicking) (List.mem_append_right _ List.mem_cons_self) with hrunning | hcompleted
      · cases hrunning
      · exact .inr hcompleted
    · exact hawaited worker (mem_replace hmem heq)
  · show s.senders - 1 = _
    rw [hsenders, List.countP_append, List.countP_append, List.countP_cons, List.countP_cons]
    rfl

theorem Books.dispatch (h : Books s) : Books s.dispatch := by
  refine ⟨?_, ?_, h.once, ?_, ?_, h.counted, h.failures, h.panics⟩
  · show (s.recorded ++ (s.workers ++ [(s.report.acceptedConnections + 1, WorkerThread.running)]).map Prod.fst).Perm
      (List.range' 1 (s.report.acceptedConnections + 1))
    rw [List.map_append, ← List.append_assoc, List.range'_concat, Nat.one_mul, Nat.add_comm 1]
    exact h.accounted.append_right _
  · intro completion hmem
    obtain ⟨thread, hthread, hreported⟩ := h.reported completion hmem
    exact ⟨thread, List.mem_append_left _ hthread, hreported⟩
  · intro worker hmem
    rcases List.mem_append.1 hmem with hold | hnew
    · exact h.awaited worker hold
    · rw [List.mem_singleton.1 hnew]
      exact .inl rfl
  · show s.senders + 1 = _
    rw [h.senders]
    show _ = (s.workers ++ [(_, WorkerThread.running)]).countP _ + 1
    rw [List.countP_append]
    rfl

theorem recordHttpListenerExchange_accepted (report : HttpListenerReport ε) (connection : Nat)
    (outcome : Except ε Unit) :
    (recordHttpListenerExchange report connection outcome).acceptedConnections = report.acceptedConnections := by
  cases outcome <;> rfl

/-- What is left of the books after a completion is received. -/
structure Received (s s' : Listening ε) (next : ListenerPoint ε) : Prop where
  books : Books s'
  point : s'.point = next
  workers : s.workers.length = s'.workers.length + 1
  accepted : s'.report.acceptedConnections = s.report.acceptedConnections
  stopObserved : s'.stopObserved = s.stopObserved

theorem Books.receive {s' : Listening ε} {next : ListenerPoint ε} (h : Books s) (hreceive : s.receive next = some s') :
    (∃ connection completions, connection ∈ s.panicked ∧
      s' = { s with point := .panicked (.worker connection), completions }) ∨ Received s s' next := by
  unfold Listening.receive at hreceive
  cases hcompletions : s.completions with
  | nil =>
    rw [hcompletions] at hreceive
    cases hreceive
  | cons completion completions =>
    obtain ⟨connection, exchange⟩ := completion
    have hmem : (connection, exchange) ∈ s.completions := hcompletions ▸ List.mem_cons_self
    obtain ⟨thread, hworker, hreported⟩ := h.reported _ hmem
    rw [hcompletions] at hreceive
    cases hfinish : finishHttpListenerCompletion (connection, exchange) s.workers s.report with
    | none => simp only [hfinish, reduceCtorEq] at hreceive
    | some result =>
      simp only [hfinish] at hreceive
      obtain ⟨rfl, rfl⟩ | ⟨outcome, workers, rfl, hperm, rfl⟩ := finish_cases h.nodup_workers hworker hreported hfinish
      · exact .inl ⟨connection, completions, h.panics _ hmem rfl, (Option.some.inj hreceive).symm⟩
      · obtain rfl := Option.some.inj hreceive
        have honce := h.once
        rw [hcompletions, List.map_cons, List.nodup_cons] at honce
        refine .inr ⟨⟨?_, ?_, honce.2, ?_, ?_, ?_, ?_, ?_⟩, rfl, hperm.length_eq,
          recordHttpListenerExchange_accepted _ _ _, rfl⟩
        · show ((s.recorded ++ [connection]) ++ workers.map Prod.fst).Perm (List.range' 1 _)
          rw [recordHttpListenerExchange_accepted, List.append_assoc]
          exact ((hperm.map Prod.fst).append_left s.recorded).symm.trans h.accounted
        · intro other hother
          obtain ⟨thread', hthread, hreported'⟩ := h.reported other (hcompletions ▸ List.mem_cons_of_mem _ hother)
          rcases List.mem_cons.1 (hperm.mem_iff.1 hthread) with heq | hthread
          · exact absurd (List.mem_map_of_mem hother) ((congrArg Prod.fst heq).symm ▸ honce.1)
          · exact ⟨thread', hthread, hreported'⟩
        · intro worker hrest
          rcases h.awaited worker (hperm.mem_iff.2 (List.mem_cons_of_mem _ hrest)) with hrunning | hcompleted
          · exact .inl hrunning
          · rw [hcompletions, List.map_cons] at hcompleted
            rcases List.mem_cons.1 hcompleted with heq | hcompleted
            · have hnodup := (hperm.map Prod.fst).nodup_iff.1 h.nodup_workers
              rw [List.map_cons, List.nodup_cons] at hnodup
              exact absurd (heq ▸ List.mem_map_of_mem hrest) hnodup.1
            · exact .inr hcompleted
        · show s.senders = _
          rw [h.senders, hperm.countP_eq, List.countP_cons]
          rfl
        · show _ = (s.recorded ++ [connection]).length
          rw [List.length_append, ← h.counted]
          cases outcome with
          | ok u => simp only [recordHttpListenerExchange, List.length_singleton]; omega
          | error source => simp only [recordHttpListenerExchange, List.length_append, List.length_singleton]; omega
        · cases outcome with
          | ok u => exact h.failures.trans (List.sublist_append_left _ _)
          | error source =>
            rw [recordHttpListenerExchange, List.map_append]
            exact h.failures.append (List.Sublist.refl _)
        · intro other hother hnone
          exact h.panics other (hcompletions ▸ List.mem_cons_of_mem _ hother) hnone

end

/-! ## The invariant -/

/-- What holds of a listener at the point where it is. -/
def Allowed (maxConnections maxInFlight : Nat) (s : Listening ε) : Prop :=
  match s.point with
  | .entering | .configuring => s.stopObserved = false ∧ s.report = .default ∧ s.workers = []
  | .looping => s.stopObserved = false
  | .waiting => s.stopObserved = false ∧ s.report.acceptedConnections < maxConnections
  | .accepting | .admitting | .dispatching =>
    s.stopObserved = false ∧ s.report.acceptedConnections < maxConnections ∧ s.workers.length < maxInFlight
  | .draining => True
  | .returned result => s.workers = [] ∧ reportOf result = s.report.sorted
  | .panicked panic => panic = .spawn ∨ ∃ connection ∈ s.panicked, panic = .worker connection

structure Inv (maxConnections maxInFlight : Nat) (s : Listening ε) : Prop where
  books : (∀ panic, s.point ≠ .panicked panic) → Books s
  within : s.workers.length ≤ maxInFlight
  budget : s.report.acceptedConnections ≤ maxConnections
  allowed : Allowed maxConnections maxInFlight s

section
variable {maxConnections maxInFlight : Nat} {s s' : Listening ε}

theorem Allowed.beside (h : Allowed maxConnections maxInFlight s) (hpoint : s'.point = s.point)
    (hobserved : s'.stopObserved = s.stopObserved) (hreport : s'.report = s.report)
    (hworkers : s'.workers.length = s.workers.length) (hpanicked : s.panicked ⊆ s'.panicked) :
    Allowed maxConnections maxInFlight s' := by
  have hempty : s.workers = [] → s'.workers = [] := fun hnil =>
    List.length_eq_zero_iff.1 (by rw [hworkers, hnil, List.length_nil])
  unfold Allowed at h ⊢
  rw [hpoint, hobserved, hreport, hworkers]
  cases hs : s.point with
  | entering | configuring =>
    rw [hs] at h
    exact ⟨h.1, h.2.1, hempty h.2.2⟩
  | returned result =>
    rw [hs] at h
    exact ⟨hempty h.1, h.2⟩
  | panicked panic =>
    rw [hs] at h
    rcases h with hspawn | ⟨connection, hmem, hpanic⟩
    · exact .inl hspawn
    · exact .inr ⟨connection, hpanicked hmem, hpanic⟩
  | _ =>
    rw [hs] at h
    exact h

theorem Inv.workerStep (h : Inv maxConnections maxInFlight s) (hstep : WorkerStep s s') :
    Inv maxConnections maxInFlight s' := by
  cases hstep with
  | send before after connection exchange hworkers =>
    have hlen : (before ++ (connection, WorkerThread.sent exchange.isNone) :: after).length = s.workers.length := by
      rw [hworkers, List.length_append, List.length_append, List.length_cons, List.length_cons]
    refine ⟨fun hrun => (h.books hrun).send exchange hworkers, hlen ▸ h.within, h.budget,
      h.allowed.beside rfl rfl rfl hlen ?_⟩
    intro other hmem
    show _ ∈ if _ then _ else _
    split
    · exact List.mem_cons_of_mem _ hmem
    · exact hmem
  | exit before after connection panicking hworkers =>
    have hlen : (before ++ (connection, WorkerThread.ended panicking) :: after).length = s.workers.length := by
      rw [hworkers, List.length_append, List.length_append, List.length_cons, List.length_cons]
    exact ⟨fun hrun => (h.books hrun).exit hworkers, hlen ▸ h.within, h.budget,
      h.allowed.beside rfl rfl rfl hlen fun _ hmem => hmem⟩
  | store value =>
    exact ⟨fun hrun => (h.books hrun).elsewhere _ _ _ _, h.within, h.budget,
      h.allowed.beside rfl rfl rfl rfl fun _ hmem => hmem⟩

theorem running_at {point : ListenerPoint ε} (hpoint : s.point = point) (h : ∀ panic, point ≠ .panicked panic) :
    ∀ panic, s.point ≠ .panicked panic := fun panic => hpoint ▸ h panic

theorem Inv.move (h : Inv maxConnections maxInFlight s) (hrun : ∀ panic, s.point ≠ .panicked panic)
    {point : ListenerPoint ε} {acceptFailure : Option IoError} {stopObserved : Bool}
    (hallowed : Allowed maxConnections maxInFlight { s with point, acceptFailure, stopObserved }) :
    Inv maxConnections maxInFlight { s with point, acceptFailure, stopObserved } :=
  ⟨fun _ => (h.books hrun).elsewhere _ _ _ _, h.within, h.budget, hallowed⟩

theorem Inv.sharedStep (h : Inv maxConnections maxInFlight s) (hstep : SharedStep s s') :
    Inv maxConnections maxInFlight s' := by
  have hallowed := h.allowed
  unfold Allowed at hallowed
  cases hstep with
  | beside _ hworker => exact h.workerStep hworker
  | disconnected hpoint hdisconnected =>
    have hrun : ∀ panic, s.point ≠ .panicked panic := by
      intro panic hpanic
      rcases hpoint with hpoint | ⟨hpoint, _⟩ <;> rw [hpoint] at hpanic <;> cases hpanic
    -- The listener holds a sender itself.
    have hsenders := (h.books hrun).senders
    unfold disconnected at hdisconnected
    rw [Bool.and_eq_true, beq_iff_eq] at hdisconnected
    omega
  | dispatch hpoint =>
    rw [hpoint] at hallowed
    obtain ⟨hobserved, hbudget, hroom⟩ := hallowed
    refine ⟨fun _ => (h.books (running_at hpoint (by rintro _ ⟨⟩))).dispatch, ?_, hbudget, hobserved⟩
    show (s.workers ++ [_]).length ≤ maxInFlight
    rw [List.length_append]
    exact hroom
  | spawnFails hpoint =>
    rw [hpoint] at hallowed
    exact ⟨fun hrun => absurd rfl (hrun .spawn), h.within, hallowed.2.1, .inl rfl⟩
  | drain _ hpoint hsome hreceive =>
    have hrun := running_at hpoint (by rintro _ ⟨⟩)
    rcases (h.books hrun).receive hreceive with ⟨connection, completions, hmem, rfl⟩ | hreceived
    · exact ⟨fun hrun => absurd rfl (hrun _), h.within, h.budget, .inr ⟨connection, hmem, rfl⟩⟩
    · refine ⟨fun _ => hreceived.books, ?_, hreceived.accepted ▸ h.budget, ?_⟩
      · have := hreceived.workers
        have := h.within
        omega
      · unfold Allowed
        rw [hreceived.point]
        trivial
  | finish hpoint hnone =>
    refine h.move (running_at hpoint (by rintro _ ⟨⟩)) ⟨hnone, ?_⟩
    unfold result
    cases s.acceptFailure <;> rfl

theorem allowed_capacity (h : Inv maxConnections maxInFlight s) (hobserved : s.stopObserved = false)
    (hbudget : s.report.acceptedConnections < maxConnections) (acceptFailure : Option IoError) :
    Allowed maxConnections maxInFlight { s with point := s.capacity maxInFlight, acceptFailure } := by
  have hwithin := h.within
  unfold Allowed capacity
  by_cases hfull : s.workers.length = maxInFlight
  · rw [if_pos hfull]
    exact ⟨hobserved, hbudget⟩
  · rw [if_neg hfull]
    exact ⟨hobserved, hbudget, by show s.workers.length < maxInFlight; omega⟩

theorem Inv.concurrentStep (h : Inv maxConnections maxInFlight s)
    (hstep : ConcurrentStep maxConnections maxInFlight s s') : Inv maxConnections maxInFlight s' := by
  have hallowed := h.allowed
  unfold Allowed at hallowed
  cases hstep with
  | shared _ hshared => exact h.sharedStep hshared
  | loop hpoint =>
    rw [hpoint] at hallowed
    have hrun := running_at hpoint (by rintro _ ⟨⟩)
    by_cases hbudget : s.report.acceptedConnections < maxConnections
    · rw [if_pos hbudget]
      exact h.move hrun (allowed_capacity h hallowed hbudget _)
    · rw [if_neg hbudget]
      exact h.move hrun trivial
  | receive _ hpoint hreceive =>
    rw [hpoint] at hallowed
    have hrun := running_at hpoint (by rintro _ ⟨⟩)
    rcases (h.books hrun).receive hreceive with ⟨connection, completions, hmem, rfl⟩ | hreceived
    · exact ⟨fun hrun => absurd rfl (hrun _), h.within, h.budget, .inr ⟨connection, hmem, rfl⟩⟩
    · have hworkers := hreceived.workers
      have hwithin := h.within
      refine ⟨fun _ => hreceived.books, by omega, hreceived.accepted ▸ h.budget, ?_⟩
      unfold Allowed
      rw [hreceived.point, hreceived.accepted, hreceived.stopObserved]
      exact ⟨hallowed.1, hallowed.2, by omega⟩
  | accepted hpoint =>
    rw [hpoint] at hallowed
    exact h.move (running_at hpoint (by rintro _ ⟨⟩)) hallowed
  | interrupted hpoint => exact h
  | acceptFails source hpoint => exact h.move (running_at hpoint (by rintro _ ⟨⟩)) trivial

/-- After a load of the stop flag, the listener either closes or goes on without having seen a request. -/
theorem Inv.checkStop (h : Inv maxConnections maxInFlight s) (hrun : ∀ panic, s.point ≠ .panicked panic)
    {stopped next : ListenerPoint ε}
    (hstopped : Allowed maxConnections maxInFlight { s with point := stopped, stopObserved := true })
    (hnext : Allowed maxConnections maxInFlight { s with point := next }) :
    Inv maxConnections maxInFlight (s.checkStop stopped next) := by
  unfold Listening.checkStop
  by_cases hstop : s.stopRequested = true
  · rw [if_pos hstop]
    exact h.move hrun hstopped
  · rw [if_neg hstop]
    exact h.move hrun hnext

theorem Inv.cancellableStep (h : Inv maxConnections maxInFlight s)
    (hstep : CancellableStep maxConnections maxInFlight s s') : Inv maxConnections maxInFlight s' := by
  have hallowed := h.allowed
  unfold Allowed at hallowed
  cases hstep with
  | shared _ hshared => exact h.sharedStep hshared
  | enter hpoint =>
    rw [hpoint] at hallowed
    obtain ⟨hobserved, hreport, hnone⟩ := hallowed
    have hrun := running_at hpoint (by rintro _ ⟨⟩)
    have hresult : reportOf (.ok s.report : HttpListenerResult ε) = s.report.sorted := by
      rw [hreport]
      rfl
    by_cases hzero : maxConnections = 0
    · rw [if_pos hzero]
      exact h.move hrun ⟨hnone, hresult⟩
    · rw [if_neg hzero]
      exact h.checkStop hrun ⟨hnone, hresult⟩ ⟨hobserved, hreport, hnone⟩
  | configured hpoint =>
    rw [hpoint] at hallowed
    exact h.move (running_at hpoint (by rintro _ ⟨⟩)) hallowed.1
  | configureFails source hpoint =>
    rw [hpoint] at hallowed
    obtain ⟨hobserved, hreport, hnone⟩ := hallowed
    refine h.move (running_at hpoint (by rintro _ ⟨⟩)) ⟨hnone, ?_⟩
    show s.report = s.report.sorted
    rw [hreport]
    rfl
  | loop hpoint =>
    rw [hpoint] at hallowed
    have hrun := running_at hpoint (by rintro _ ⟨⟩)
    by_cases hbudget : s.report.acceptedConnections < maxConnections
    · rw [if_pos hbudget]
      exact h.checkStop hrun trivial (allowed_capacity h hallowed hbudget _)
    · rw [if_neg hbudget]
      exact h.move hrun trivial
  | receive _ hpoint hreceive =>
    rw [hpoint] at hallowed
    rcases (h.books (running_at hpoint (by rintro _ ⟨⟩))).receive hreceive with
      ⟨connection, completions, hmem, rfl⟩ | hreceived
    · exact ⟨fun hrun => absurd rfl (hrun _), h.within, h.budget, .inr ⟨connection, hmem, rfl⟩⟩
    · have hworkers := hreceived.workers
      have hwithin := h.within
      refine ⟨fun _ => hreceived.books, by omega, hreceived.accepted ▸ h.budget, ?_⟩
      unfold Allowed
      rw [hreceived.point, hreceived.stopObserved]
      exact hallowed.1
  | timeout hpoint =>
    rw [hpoint] at hallowed
    exact h.move (running_at hpoint (by rintro _ ⟨⟩)) hallowed.1
  | accepted hpoint =>
    rw [hpoint] at hallowed
    exact h.move (running_at hpoint (by rintro _ ⟨⟩)) hallowed
  | interrupted hpoint =>
    rw [hpoint] at hallowed
    exact h.move (running_at hpoint (by rintro _ ⟨⟩)) hallowed.1
  | wouldBlock hpoint =>
    rw [hpoint] at hallowed
    have hrun := running_at hpoint (by rintro _ ⟨⟩)
    by_cases hnone : s.workers = []
    · rw [if_pos hnone]
      exact h.move hrun hallowed.1
    · rw [if_neg hnone]
      exact h.move hrun ⟨hallowed.1, hallowed.2.1⟩
  | acceptFails source hpoint => exact h.move (running_at hpoint (by rintro _ ⟨⟩)) trivial
  | admits hpoint =>
    rw [hpoint] at hallowed
    exact h.checkStop (running_at hpoint (by rintro _ ⟨⟩)) trivial hallowed

theorem Inv.start (point : ListenerPoint ε) (stopRequested : Bool)
    (hpoint : Allowed maxConnections maxInFlight (start point stopRequested)) :
    Inv maxConnections maxInFlight (start point stopRequested) :=
  ⟨fun _ => ⟨List.Perm.refl _, List.forall_mem_nil _, List.nodup_nil, List.forall_mem_nil _, rfl, rfl, List.Sublist.refl _,
    List.forall_mem_nil _⟩, Nat.zero_le _, Nat.zero_le _, hpoint⟩

theorem accepted_of_workerStep (hstep : WorkerStep s s') :
    s'.report.acceptedConnections = s.report.acceptedConnections := by
  cases hstep <;> rfl

theorem accepted_of_receive (h : Books s) {next : ListenerPoint ε} (hreceive : s.receive next = some s') :
    s'.report.acceptedConnections = s.report.acceptedConnections := by
  rcases h.receive hreceive with ⟨_, _, _, rfl⟩ | hreceived
  · rfl
  · exact hreceived.accepted

theorem checkStop_report (s : Listening ε) (stopped next : ListenerPoint ε) : (s.checkStop stopped next).report = s.report := by
  unfold Listening.checkStop
  split <;> rfl

theorem Inv.not_dispatching (h : Inv maxConnections maxInFlight s) (hobserved : s.stopObserved = true) :
    s.point ≠ .dispatching := by
  intro hpoint
  have hallowed := h.allowed
  unfold Allowed at hallowed
  rw [hpoint] at hallowed
  rw [hallowed.1] at hobserved
  cases hobserved

theorem Inv.accepted_of_sharedStep (h : Inv maxConnections maxInFlight s) (hobserved : s.stopObserved = true)
    (hstep : SharedStep s s') : s'.report.acceptedConnections = s.report.acceptedConnections := by
  cases hstep with
  | beside _ hworker => exact accepted_of_workerStep hworker
  | disconnected => rfl
  | dispatch hpoint => exact absurd hpoint (h.not_dispatching hobserved)
  | spawnFails hpoint => exact absurd hpoint (h.not_dispatching hobserved)
  | drain _ hpoint _ hreceive => exact accepted_of_receive (h.books (running_at hpoint (by rintro _ ⟨⟩))) hreceive
  | finish => rfl

end

end Listening

namespace HttpListener

open Listening

variable {listener : HttpListener} {maxConnections maxInFlight : Nat} {s s' : Listening ε}

theorem Step.inv (h : Inv maxConnections maxInFlight s) (hstep : listener.Step maxConnections maxInFlight s s') :
    Inv maxConnections maxInFlight s' := by
  cases listener with
  | concurrent => exact h.concurrentStep hstep
  | untilCancelled => exact h.cancellableStep hstep

theorem Start.inv (h : listener.Start s) : Inv maxConnections maxInFlight s := by
  cases listener with
  | concurrent => exact h ▸ Inv.start _ _ rfl
  | untilCancelled => exact h ▸ Inv.start _ _ ⟨rfl, rfl, rfl⟩

theorem Reachable.inv (h : listener.Reachable maxConnections maxInFlight s) : Inv maxConnections maxInFlight s := by
  have hstart : ∀ s : Listening ε, listener.Start s → Inv maxConnections maxInFlight s := fun _ => Start.inv
  have hstep : ∀ s s' : Listening ε, Inv maxConnections maxInFlight s →
      listener.Step maxConnections maxInFlight s s' → Inv maxConnections maxInFlight s' := fun _ _ => Step.inv
  exact Transition.Reachable.invariant hstart hstep h

theorem Step.accepted_of_observed (h : Inv maxConnections maxInFlight s) (hobserved : s.stopObserved = true)
    (hstep : listener.Step maxConnections maxInFlight s s') :
    s'.report.acceptedConnections = s.report.acceptedConnections := by
  cases listener with
  | concurrent =>
    cases hstep with
    | shared _ hshared => exact h.accepted_of_sharedStep hobserved hshared
    | receive _ hpoint hreceive => exact accepted_of_receive (h.books (running_at hpoint (by rintro _ ⟨⟩))) hreceive
    | _ => rfl
  | untilCancelled =>
    cases hstep with
    | shared _ hshared => exact h.accepted_of_sharedStep hobserved hshared
    | receive _ hpoint hreceive => exact accepted_of_receive (h.books (running_at hpoint (by rintro _ ⟨⟩))) hreceive
    | enter hpoint =>
      split
      · rfl
      · rw [checkStop_report]
    | loop hpoint =>
      split
      · rw [checkStop_report]
      · rfl
    | admits hpoint => rw [checkStop_report]
    | _ => rfl

theorem sorted_failures (report : HttpListenerReport ε)
    (hnodup : (report.connectionFailures.map HttpConnectionFailure.connection).Nodup) :
    report.sorted.connectionFailures.Pairwise fun earlier later => earlier.connection < later.connection := by
  have hmap : report.sorted.connectionFailures.map HttpConnectionFailure.connection =
      (report.connectionFailures.map HttpConnectionFailure.connection).insertionSort (· ≤ ·) :=
    List.map_insertionSort _ _ _ _ fun _ _ _ _ => Iff.rfl
  have hordered := List.pairwise_insertionSort (· ≤ ·) (report.connectionFailures.map HttpConnectionFailure.connection)
  have hdistinct := (List.perm_insertionSort (· ≤ ·) _).nodup_iff.2 hnodup
  rw [← hmap, List.pairwise_map] at hordered
  rw [← hmap, List.Nodup, List.pairwise_map] at hdistinct
  exact hordered.imp₂ (fun _ _ hle hne => lt_of_le_of_ne hle hne) hdistinct

/-- **Listener bookkeeping.** In every reachable state of either listener: the connections in flight stay within the
cap and the accepted ones within the budget; nothing is dispatched once a stop request has been observed; every
accepted connection is recorded or in flight, and each completion belongs to one in flight. A listener that returns
has recorded every accepted connection exactly once, in a report that adds up, with its failures in acceptance order.
It panics only where a worker has panicked or the system refuses a thread. -/
theorem listener_bookkeeping (h : listener.Reachable maxConnections maxInFlight s) :
    s.workers.length ≤ maxInFlight ∧ s.report.acceptedConnections ≤ maxConnections ∧
    (s.stopObserved = true → ∀ s', listener.Step maxConnections maxInFlight s s' →
      s'.report.acceptedConnections = s.report.acceptedConnections) ∧
    ((∀ panic, s.point ≠ .panicked panic) →
      (s.recorded ++ s.workers.map Prod.fst).Perm (List.range' 1 s.report.acceptedConnections) ∧
      ∀ completion ∈ s.completions, completion.1 ∈ s.workers.map Prod.fst) ∧
    (∀ result, s.point = .returned result →
      s.recorded.Perm (List.range' 1 (reportOf result).acceptedConnections) ∧
      (reportOf result).acceptedConnections =
        (reportOf result).successfulExchanges + (reportOf result).connectionFailures.length ∧
      (∀ failure ∈ (reportOf result).connectionFailures, failure.connection ∈ s.recorded) ∧
      (reportOf result).connectionFailures.Pairwise fun earlier later => earlier.connection < later.connection) ∧
    ∀ panic, s.point = .panicked panic → panic = .spawn ∨ ∃ connection ∈ s.panicked, panic = .worker connection := by
  have hinv := h.inv
  have hallowed := hinv.allowed
  unfold Allowed at hallowed
  refine ⟨hinv.within, hinv.budget, fun hobserved _ hstep => hstep.accepted_of_observed hinv hobserved, fun hrun => ?_,
    fun result hpoint => ?_, fun panic hpoint => ?_⟩
  · refine ⟨(hinv.books hrun).accounted, fun completion hmem => ?_⟩
    obtain ⟨thread, hworker, _⟩ := (hinv.books hrun).reported completion hmem
    exact List.mem_map_of_mem hworker
  · rw [hpoint] at hallowed
    obtain ⟨hnone, hreport⟩ := hallowed
    have hbooks := hinv.books (running_at hpoint (by rintro _ ⟨⟩))
    have haccounted := hbooks.accounted
    have hnodup := hbooks.nodup
    rw [hnone, List.map_nil, List.append_nil] at haccounted hnodup
    have hcount := haccounted.length_eq
    have hperm := s.report.connectionFailures.perm_insertionSort fun earlier later =>
      earlier.connection ≤ later.connection
    rw [List.length_range', ← hbooks.counted] at hcount
    rw [hreport]
    refine ⟨haccounted, ?_, fun failure hmem => ?_, sorted_failures _ (hnodup.sublist hbooks.failures)⟩
    · show s.report.acceptedConnections = s.report.successfulExchanges + (List.insertionSort _ _).length
      rw [List.length_insertionSort]
      exact hcount.symm
    · exact hbooks.failures.subset (List.mem_map_of_mem (hperm.mem_iff.1 hmem))
  · rw [hpoint] at hallowed
    exact hallowed

/-- The second of two connections is over before the first, which fails; a stop request comes before the listener
would accept a third. -/
theorem sample_reachable : ∃ s : Listening String, untilCancelled.Reachable 3 2 s ∧
    s.point = .returned (.ok ⟨2, 1, [⟨1, "reset"⟩]⟩) ∧ s.recorded = [2, 1] := by
  have hstart : untilCancelled.Reachable 3 2 (start .entering false : Listening String) := .start rfl
  have hconfiguring := hstart.next (.enter _ rfl)
  have hlooping := hconfiguring.next (.configured _ rfl)
  have hfirst := ((hlooping.next (.loop _ rfl)).next (.accepted _ rfl)).next (.admits _ rfl)
  have hbusy := hfirst.next (.shared _ _ (.dispatch _ rfl))
  have hsecond := ((hbusy.next (.loop _ rfl)).next (.accepted _ rfl)).next (.admits _ rfl)
  have hfull := hsecond.next (.shared _ _ (.dispatch _ rfl))
  have hwaiting := hfull.next (.loop _ rfl)
  have hsent₂ := hwaiting.next
    (.shared _ _ (.beside _ _ (.send _ [(1, .running)] [] 2 (some (.ok ())) rfl)))
  have hended₂ := hsent₂.next (.shared _ _ (.beside _ _ (.exit _ [(1, .running)] [] 2 false rfl)))
  have hsent₁ := hended₂.next
    (.shared _ _ (.beside _ _ (.send _ [] [(2, .ended false)] 1 (some (.error "reset")) rfl)))
  have hended₁ := hsent₁.next (.shared _ _ (.beside _ _ (.exit _ [] [(2, .ended false)] 1 false rfl)))
  have hstored := hended₁.next (.shared _ _ (.beside _ _ (.store _ true)))
  have hreceived := hstored.next (.receive _ _ rfl rfl)
  have hdraining := hreceived.next (.loop _ rfl)
  have hdrained := hdraining.next (.shared _ _ (.drain _ _ rfl (List.cons_ne_nil _ _) rfl))
  exact ⟨_, hdrained.next (.shared _ _ (.finish _ rfl rfl)), rfl, rfl⟩

theorem listener_bookkeeping_sample : ∃ s : Listening String, untilCancelled.Reachable 3 2 s ∧
    s.point = .returned (.ok ⟨2, 1, [⟨1, "reset"⟩]⟩) ∧ s.recorded = [2, 1] ∧ s.recorded.Perm [1, 2] ∧ 1 ∈ s.recorded := by
  obtain ⟨s, hreach, hpoint, hrecorded⟩ := sample_reachable
  obtain ⟨hperm, -, hfailures, -⟩ := (listener_bookkeeping hreach).2.2.2.2.1 _ hpoint
  exact ⟨s, hreach, hpoint, hrecorded, hperm, hfailures ⟨1, "reset"⟩ (List.mem_singleton.2 rfl)⟩

end HttpListener

end RustHouse.Http
