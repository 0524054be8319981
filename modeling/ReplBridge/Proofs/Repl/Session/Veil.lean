import ReplBridge.Proofs.Repl.Session.Parties
import ReplBridge.Proofs.Repl.Session.Taken

/-!
**A session behind a veil.**

To say that nobody notices when a caller gives up, two sessions have to be compared: the one that
happened, and the one in which it had not.  They are compared by what is left of the first when it
is looked at through a *veil*.  A veil hides one call: all of it, or only that its caller gave up;
and with it the client who waits for that call, if there is one.  Where all of the call is hidden,
the calls after it move up, and their numbers are one lower.

Whatever a party of a session does, it does behind the veil as well, unless it has to do with what
is hidden; and then nothing happens behind the veil.

Main definitions:

* `Repl.Veil` — what is hidden, with `Veil.index`, `Veil.number` and `Veil.seat`, the new places of
  what is not;
* `Session.behind` — **the session as it looks behind a veil**;
* `Veil.Skips` — the worker comes to the hidden call.

Main results:

* `Session.behind_finish`, `Session.behind_terminate`, `Session.behind_dispatch` — what the parties
  share;
* `Session.behind_announce?`, `Session.behind_workerMove?`, `Session.behind_pumpMove?`,
  `Session.behind_complaintsMove?`, `Session.behind_clientStep?` — **the parties move behind a veil as they do before it**.
-/

set_option autoImplicit false

namespace ReplBridge.Repl

variable {i j call : Nat}

/-- **What is hidden of a session.** -/
structure Veil where
  call : Nat
  /-- Whether all of the call is hidden, or only that its caller gave up. -/
  whole : Bool
  /-- The place of the client who waits for it. -/
  place : Option Nat := none
  deriving DecidableEq, Repr

/-- The call that a client waits for. -/
def Client.call? : Client → Option Nat
  | .executing call _ => some call
  | .quitting call _ => some call
  | _ => none

namespace Veil

variable (v : Veil)

/-! ### What is left to be seen -/

/-- The place of a call among those that are seen. -/
def index (i : Nat) : Nat := if v.whole = true ∧ v.call < i then i - 1 else i

/-- The number of a call among those that are seen. -/
def number (n : Nat) : Nat := if v.whole = true ∧ v.call + 1 < n then n - 1 else n

/-- The place of a client among those that are seen. -/
def seat (j : Nat) : Nat :=
  match v.place with
  | some k => if k < j then j - 1 else j
  | none => j

/-- What is seen of the call at a place. -/
def entry (i : Nat) (c : Call) : Call :=
  { c with
    seq := v.number c.seq
    abandoned := c.abandoned && (v.whole || i != v.call) }

def calls (calls : List Call) : List Call :=
  if v.whole then (calls.mapIdx v.entry).eraseIdx v.call else calls.mapIdx v.entry

def queue (queue : List Nat) : List Nat :=
  if v.whole then (queue.filter (· ≠ v.call)).map v.index else queue

def worker : Worker → Worker
  | .awaiting call deadline => .awaiting (v.index call) deadline
  | w => w

def client : Client → Client
  | .executing call deadline => .executing (v.index call) deadline
  | .quitting call deadline => .quitting (v.index call) deadline
  | c => c

def clients (clients : List Client) : List Client :=
  match v.place with
  | some k => (clients.eraseIdx k).map v.client
  | none => clients.map v.client

/-- What is seen of what happened. -/
def effect : Effect → Effect
  | .wrote seq line => .wrote (v.number seq) line
  | .recorded direction seq text => .recorded direction (v.number seq) text
  | e => e

/-- Nothing at all is seen of a call. -/
def Covers (i : Nat) : Prop := v.whole = true ∧ i = v.call

variable {v}

theorem index_of_half (h : v.whole = false) (i : Nat) : v.index i = i := by simp [index, h]

theorem number_of_half (h : v.whole = false) (n : Nat) : v.number n = n := by simp [number, h]

theorem not_covers_of_ne (h : i ≠ v.call) : ¬ v.Covers i := fun hi => h hi.2

/-- Numbers count the calls that are seen. -/
theorem number_succ (i : Nat) : v.number (i + 1) = v.index i + 1 := by
  cases hwhole : v.whole with
  | false => simp [number, index, hwhole]
  | true =>
      simp only [number, index, hwhole, true_and]
      split <;> split <;> omega

theorem index_succ (h : v.whole = true → v.call < i) : v.index (i + 1) = v.index i + 1 := by
  cases hwhole : v.whole with
  | false => simp [index, hwhole]
  | true =>
      have hlt := h hwhole
      simp only [index, hwhole, true_and, hlt, if_true]
      rw [if_pos (by omega)]
      omega

/-- The calls that are seen keep their order. -/
theorem index_lt (hi : ¬ v.Covers i) (hj : ¬ v.Covers j) (h : i < j) : v.index i < v.index j := by
  cases hwhole : v.whole with
  | false => simpa [index, hwhole] using h
  | true =>
      have hi : i ≠ v.call := fun heq => hi ⟨hwhole, heq⟩
      have hj : j ≠ v.call := fun heq => hj ⟨hwhole, heq⟩
      simp only [index, hwhole, true_and]
      split <;> split <;> omega

@[simp] theorem number_zero : v.number 0 = 0 := by simp [number]

@[simp] theorem entry_seq (i : Nat) (c : Call) : (v.entry i c).seq = v.number c.seq := rfl

@[simp] theorem entry_command (i : Nat) (c : Call) : (v.entry i c).command = c.command := rfl

@[simp] theorem entry_outcome (i : Nat) (c : Call) : (v.entry i c).outcome = c.outcome := rfl

/-- Only of the hidden call it is not seen that its caller gave up. -/
theorem entry_abandoned {c : Call} (h : i = v.call → c.abandoned = false) :
    (v.entry i c).abandoned = c.abandoned := by
  by_cases hi : i = v.call
  · simp [entry, h hi]
  · simp [entry, hi]

/-- A call that keeps its number and is not the hidden one looks as it is. -/
theorem entry_eq_self {c : Call} (hseq : v.number c.seq = c.seq)
    (h : i = v.call → c.abandoned = false) : v.entry i c = c := by
  have hflag : (c.abandoned && (v.whole || i != v.call)) = c.abandoned := entry_abandoned h
  rw [entry, hseq, hflag]

theorem mapIdx_entry_eq_self {calls : List Call}
    (h : ∀ i c, calls[i]? = some c → v.entry i c = c) : calls.mapIdx v.entry = calls := by
  refine List.ext_getElem? fun i => ?_
  rw [List.getElem?_mapIdx]
  cases hc : calls[i]? with
  | none => rfl
  | some c => rw [Option.map_some, h i c hc]

theorem entry_finish (i : Nat) (o : Outcome) (c : Call) :
    v.entry i (c.finish o) = (v.entry i c).finish o := by
  cases h : c.outcome with
  | none =>
      rw [Call.finish_of_none h, Call.finish_of_none (c := v.entry i c) h]
      rfl
  | some p => rw [Call.finish_of_some h, Call.finish_of_some (c := v.entry i c) h]

/-! ### Calls behind a veil -/

/-- A call that is seen, in its new place. -/
theorem getElem?_calls (h : ¬ v.Covers i) (calls : List Call) :
    (v.calls calls)[v.index i]? = calls[i]?.map (v.entry i) := by
  cases hwhole : v.whole with
  | false => simp [Veil.calls, hwhole, index_of_half hwhole]
  | true =>
      have hne : i ≠ v.call := fun hi => h ⟨hwhole, hi⟩
      by_cases hlt : v.call < i
      · have hback : i - 1 + 1 = i := by omega
        have hnot : ¬ i - 1 < v.call := by omega
        simp [Veil.calls, index, hwhole, hlt, List.getElem?_eraseIdx, hnot, hback]
      · have hbefore : i < v.call := by omega
        simp [Veil.calls, index, hwhole, hlt, List.getElem?_eraseIdx, hbefore]

theorem mapIdx_entry_modify {f : Call → Call} (calls : List Call)
    (hf : ∀ c, v.entry i (f c) = f (v.entry i c)) :
    (calls.modify i f).mapIdx v.entry = (calls.mapIdx v.entry).modify i f := by
  refine List.ext_getElem? fun j => ?_
  simp only [List.getElem?_mapIdx, List.getElem?_modify]
  by_cases hij : i = j
  · subst hij
    cases calls[i]? with
    | none => rfl
    | some c => simpa using hf c
  · cases calls[j]? <;> simp [hij]

/-- What happens to a call that is seen, happens in its new place. -/
theorem calls_modify (h : ¬ v.Covers i) {f : Call → Call}
    (hf : ∀ c, v.entry i (f c) = f (v.entry i c)) (calls : List Call) :
    v.calls (calls.modify i f) = (v.calls calls).modify (v.index i) f := by
  cases hwhole : v.whole with
  | false => simp [Veil.calls, hwhole, index_of_half hwhole, mapIdx_entry_modify calls hf]
  | true =>
      have hne : i ≠ v.call := fun hi => h ⟨hwhole, hi⟩
      simp only [Veil.calls, hwhole, if_true, mapIdx_entry_modify calls hf, index, true_and]
      split
      · rename_i hlt
        exact List.eraseIdx_modify_of_lt f i v.call _ hlt
      · exact List.eraseIdx_modify_of_gt f i v.call _ (by omega)

/-- What happens to the hidden call is not seen. -/
theorem calls_modify_covered (h : v.Covers i) (f : Call → Call) (calls : List Call) :
    v.calls (calls.modify i f) = v.calls calls := by
  obtain ⟨hwhole, rfl⟩ := h
  refine List.ext_getElem? fun j => ?_
  simp only [Veil.calls, hwhole, if_true, List.getElem?_eraseIdx, List.getElem?_mapIdx,
    List.getElem?_modify]
  split
  · rename_i hlt
    have hne : v.call ≠ j := by omega
    cases calls[j]? <;> simp [hne]
  · have hne : v.call ≠ j + 1 := by omega
    cases calls[j + 1]? <;> simp [hne]

/-- That the caller of the hidden call gives up is never seen. -/
theorem calls_giveUp (calls : List Call) :
    v.calls (calls.modify v.call fun c => { c with abandoned := true }) = v.calls calls := by
  cases hwhole : v.whole with
  | true => exact calls_modify_covered ⟨hwhole, rfl⟩ _ calls
  | false =>
      have hsame (c : Call) : v.entry v.call { c with abandoned := true } = v.entry v.call c := by
        simp [entry, hwhole]
      simp only [Veil.calls, hwhole, Bool.false_eq_true, if_false]
      refine List.ext_getElem? fun j => ?_
      rw [List.getElem?_mapIdx, List.getElem?_mapIdx, List.getElem?_modify]
      by_cases hj : v.call = j
      · subst hj
        cases calls[v.call]? with
        | none => rfl
        | some c => simpa using hsame c
      · cases calls[j]? <;> simp [hj]

theorem length_calls {calls : List Call} (h : v.whole = true → v.call < calls.length) :
    (v.calls calls).length = v.index calls.length := by
  cases hwhole : v.whole with
  | false => simp [Veil.calls, index, hwhole]
  | true => simp [Veil.calls, index, hwhole, List.length_eraseIdx, h hwhole]

/-- A call that is added is seen behind all others. -/
theorem calls_append {calls : List Call} (h : v.whole = true → v.call < calls.length) (c : Call) :
    v.calls (calls ++ [c]) = v.calls calls ++ [v.entry calls.length c] := by
  cases hwhole : v.whole with
  | false => simp [Veil.calls, hwhole]
  | true =>
      have hlt : v.call < (calls.mapIdx v.entry).length := by simpa using h hwhole
      simp [Veil.calls, hwhole, List.eraseIdx_append_of_lt_length hlt]

/-- The hidden call is not seen to be added. -/
theorem calls_append_covered {calls : List Call} (h : v.Covers calls.length) (c : Call) :
    v.calls (calls ++ [c]) = v.calls calls := by
  obtain ⟨hwhole, hcall⟩ := h
  have hlast : v.call = (calls.mapIdx v.entry).length := by simp [hcall]
  have hle : (calls.mapIdx v.entry).length ≤ v.call := Nat.le_of_eq hlast.symm
  simp only [Veil.calls, hwhole, if_true, List.mapIdx_concat]
  rw [List.eraseIdx_append_of_length_le hle, List.eraseIdx_of_length_le hle, hlast, Nat.sub_self]
  simp

/-! ### Queues behind a veil -/

@[simp] theorem queue_nil : v.queue [] = [] := by simp [Veil.queue]

theorem queue_cons (h : ¬ v.Covers i) (rest : List Nat) :
    v.queue (i :: rest) = v.index i :: v.queue rest := by
  cases hwhole : v.whole with
  | false => simp [Veil.queue, hwhole, index_of_half hwhole]
  | true =>
      have hne : i ≠ v.call := fun hi => h ⟨hwhole, hi⟩
      simp [Veil.queue, hwhole, hne]

theorem queue_cons_covered (h : v.Covers i) (rest : List Nat) :
    v.queue (i :: rest) = v.queue rest := by
  obtain ⟨hwhole, rfl⟩ := h
  simp [Veil.queue, hwhole]

theorem queue_concat (h : ¬ v.Covers i) (queue : List Nat) :
    v.queue (queue ++ [i]) = v.queue queue ++ [v.index i] := by
  cases hwhole : v.whole with
  | false => simp [Veil.queue, hwhole, index_of_half hwhole]
  | true =>
      have hne : i ≠ v.call := fun hi => h ⟨hwhole, hi⟩
      simp [Veil.queue, hwhole, List.filter_append, hne]

theorem queue_concat_covered (h : v.Covers i) (queue : List Nat) :
    v.queue (queue ++ [i]) = v.queue queue := by
  obtain ⟨hwhole, rfl⟩ := h
  simp [Veil.queue, hwhole]

theorem mem_queue {queue : List Nat} (h : i ∈ v.queue queue) :
    ∃ j ∈ queue, ¬ v.Covers j ∧ v.index j = i := by
  cases hwhole : v.whole with
  | false =>
      simp only [Veil.queue, hwhole, Bool.false_eq_true, if_false] at h
      exact ⟨i, h, by simp [Covers, hwhole], index_of_half hwhole i⟩
  | true =>
      simp only [Veil.queue, hwhole, if_true, List.mem_map, List.mem_filter] at h
      obtain ⟨j, ⟨hj, hne⟩, rfl⟩ := h
      exact ⟨j, hj, not_covers_of_ne (by simpa using hne), rfl⟩

/-- The queue that is seen keeps its order. -/
theorem pairwise_queue {queue : List Nat} (h : queue.Pairwise (· < ·)) :
    (v.queue queue).Pairwise (· < ·) := by
  cases hwhole : v.whole with
  | false => simpa [Veil.queue, hwhole] using h
  | true =>
      simp only [Veil.queue, hwhole, if_true, List.pairwise_map]
      refine (h.filter _).imp_of_mem ?_
      intro i j hi hj hlt
      have hi' : i ≠ v.call := by simpa using (List.mem_filter.1 hi).2
      have hj' : j ≠ v.call := by simpa using (List.mem_filter.1 hj).2
      exact index_lt (not_covers_of_ne hi') (not_covers_of_ne hj') hlt

/-- The queued calls that are seen end where they are seen. -/
theorem calls_finishAll (o : Outcome) (queue : List Nat) (calls : List Call) :
    v.calls (finishAll o queue calls) = finishAll o (v.queue queue) (v.calls calls) := by
  induction queue generalizing calls with
  | nil => simp [finishAll]
  | cons i queue ih =>
      have hstep (i : Nat) (queue : List Nat) (calls : List Call) : finishAll o (i :: queue) calls =
          finishAll o queue (calls.modify i (Call.finish o)) := rfl
      rw [hstep, ih]
      by_cases hi : v.Covers i
      · rw [calls_modify_covered hi, queue_cons_covered hi]
      · rw [calls_modify hi (entry_finish i o), queue_cons hi, hstep]

/-! ### Clients behind a veil -/

theorem getElem?_clients (h : v.place ≠ some j) (clients : List Client) :
    (v.clients clients)[v.seat j]? = clients[j]?.map v.client := by
  cases hplace : v.place with
  | none => simp [Veil.clients, seat, hplace]
  | some k =>
      have hne : k ≠ j := fun hk => h (by rw [hplace, hk])
      simp only [Veil.clients, seat, hplace, List.getElem?_map, List.getElem?_eraseIdx]
      split
      · have hback : j - 1 + 1 = j := by omega
        rw [if_neg (by omega), hback]
      · rw [if_pos (by omega)]

/-- Every place among the clients that are seen is that of some client. -/
theorem exists_seat (v : Veil) (j : Nat) : ∃ i, v.place ≠ some i ∧ v.seat i = j := by
  cases hplace : v.place with
  | none => exact ⟨j, by simp, by simp [seat, hplace]⟩
  | some k =>
      by_cases hlt : j < k
      · refine ⟨j, by simp; omega, ?_⟩
        simp only [seat, hplace]
        rw [if_neg (by omega)]
      · refine ⟨j + 1, by simp; omega, ?_⟩
        simp only [seat, hplace]
        rw [if_pos (by omega)]
        omega

/-- The clients that are seen keep their order. -/
theorem lt_of_seat_lt (hi : v.place ≠ some i) (hj : v.place ≠ some j) (h : v.seat i < v.seat j) :
    i < j := by
  cases hplace : v.place with
  | none => simpa [seat, hplace] using h
  | some k =>
      have hik : k ≠ i := fun hk => hi (by rw [hplace, hk])
      have hjk : k ≠ j := fun hk => hj (by rw [hplace, hk])
      simp only [seat, hplace] at h
      split at h <;> split at h <;> omega

theorem clients_set (h : v.place ≠ some j) (clients : List Client) (c : Client) :
    v.clients (clients.set j c) = (v.clients clients).set (v.seat j) (v.client c) := by
  cases hplace : v.place with
  | none => simp [Veil.clients, seat, hplace, List.map_set]
  | some k =>
      have hne : k ≠ j := fun hk => h (by rw [hplace, hk])
      simp only [Veil.clients, seat, hplace]
      split
      · rename_i hlt
        rw [List.eraseIdx_set_lt hlt, List.map_set]
      · rw [List.eraseIdx_set_gt (by omega), List.map_set]

theorem clients_set_place (h : v.place = some j) (clients : List Client) (c : Client) :
    v.clients (clients.set j c) = v.clients clients := by
  simp [Veil.clients, h, List.eraseIdx_set_eq]

theorem clients_append {clients : List Client} (h : ∀ k, v.place = some k → k < clients.length)
    (c : Client) : v.clients (clients ++ [c]) = v.clients clients ++ [v.client c] := by
  cases hplace : v.place with
  | none => simp [Veil.clients, hplace]
  | some k => simp [Veil.clients, hplace, List.eraseIdx_append_of_lt_length (h k hplace)]

/-- The hidden client is not seen to come. -/
theorem clients_append_place {clients : List Client} (h : v.place = some clients.length)
    (c : Client) : v.clients (clients ++ [c]) = v.clients clients := by
  simp [Veil.clients, h, List.eraseIdx_append_of_length_le (Nat.le_refl clients.length),
    List.eraseIdx_of_length_le (Nat.le_refl clients.length)]

theorem mem_clients {clients : List Client} {c' : Client} (h : c' ∈ v.clients clients) :
    ∃ c ∈ clients, c' = v.client c := by
  unfold Veil.clients at h
  split at h
  · obtain ⟨c, hc, rfl⟩ := List.mem_map.1 h
    exact ⟨c, List.mem_of_mem_eraseIdx hc, rfl⟩
  · obtain ⟨c, hc, rfl⟩ := List.mem_map.1 h
    exact ⟨c, hc, rfl⟩

@[simp] theorem client_deadline? (c : Client) : (v.client c).deadline? = c.deadline? := by
  cases c <;> rfl

@[simp] theorem client_rank (c : Client) : (v.client c).rank = c.rank := by
  cases c <;> rfl

@[simp] theorem worker_deadline? (w : Worker) : (v.worker w).deadline? = w.deadline? := by
  cases w <;> rfl

end Veil

namespace Session

/-! ### The session behind a veil -/

/-- **The session as it looks behind a veil.** -/
def behind (s : Session) (v : Veil) : Session :=
  { s with
    calls := v.calls s.calls
    queue := v.queue s.queue
    accepted := v.index s.accepted
    worker := v.worker s.worker
    clients := v.clients s.clients
    log := s.log.map v.effect }

variable {v : Veil}

@[simp] theorem behind_options (s : Session) : (s.behind v).options = s.options := rfl

@[simp] theorem behind_state (s : Session) : (s.behind v).state = s.state := rfl

@[simp] theorem behind_launched (s : Session) : (s.behind v).launched = s.launched := rfl

@[simp] theorem behind_child (s : Session) : (s.behind v).child = s.child := rfl

@[simp] theorem behind_pump (s : Session) : (s.behind v).pump = s.pump := rfl

@[simp] theorem behind_complaints (s : Session) : (s.behind v).complaints = s.complaints := rfl

@[simp] theorem behind_now (s : Session) : (s.behind v).now = s.now := rfl

@[simp] theorem behind_reason? (s : Session) : (s.behind v).reason? = s.reason? := rfl

@[simp] theorem behind_done (s : Session) : (s.behind v).done = s.done := rfl

@[simp] theorem behind_launching (s : Session) : (s.behind v).launching = s.launching := rfl

@[simp] theorem behind_announced? (s : Session) : (s.behind v).announced? = s.announced? := rfl

@[simp] theorem behind_offered? (s : Session) : (s.behind v).offered? = s.offered? := rfl

@[simp] theorem behind_childGone (s : Session) : (s.behind v).childGone = s.childGone := rfl

@[simp] theorem behind_writeFailure? (s : Session) :
    (s.behind v).writeFailure? = s.writeFailure? := rfl

theorem behind_getElem? (h : ¬ v.Covers i) (s : Session) :
    (s.behind v).calls[v.index i]? = s.calls[i]?.map (v.entry i) :=
  Veil.getElem?_calls h s.calls

/-- **A call that is seen has its outcome behind the veil.** -/
theorem behind_outcome? (h : ¬ v.Covers i) (s : Session) :
    (s.behind v).outcome? (v.index i) = s.outcome? i := by
  rw [outcome?_eq, outcome?_eq, behind_getElem? h]
  cases s.calls[i]? <;> rfl

theorem behind_emit (s : Session) (e : Effect) :
    (s.emit e).behind v = (s.behind v).emit (v.effect e) := by
  simp [behind, emit]

theorem behind_finish (h : ¬ v.Covers i) (s : Session) (o : Outcome) :
    (s.finish i o).behind v = (s.behind v).finish (v.index i) o := by
  simp [behind, Veil.calls_modify h (Veil.entry_finish i o)]

theorem behind_finish_covered (h : v.Covers i) (s : Session) (o : Outcome) :
    (s.finish i o).behind v = s.behind v := by
  simp [behind, Veil.calls_modify_covered h]

theorem behind_giveUp (h : i ≠ v.call) (s : Session) :
    (s.giveUp i).behind v = (s.behind v).giveUp (v.index i) := by
  have hentry (c : Call) : v.entry i { c with abandoned := true } =
      { v.entry i c with abandoned := true } := by
    simp [Veil.entry, h]
  simp [behind, giveUp, Veil.calls_modify (Veil.not_covers_of_ne h) hentry]

theorem behind_giveUp_call (s : Session) : (s.giveUp v.call).behind v = s.behind v := by
  simp only [behind, giveUp, Veil.calls_giveUp]

theorem behind_terminate (s : Session) (r : Failure) :
    (s.terminate r).behind v = (s.behind v).terminate r := by
  by_cases h : s.reason? = none
  · rw [terminate_open h, terminate_open (s := s.behind v) h]
    simp [behind, Veil.calls_finishAll, Veil.effect]
  · rw [terminate_over h, terminate_over (s := s.behind v) h]

theorem behind_childExits (s : Session) (status : Option Failure) :
    (s.childExits status).behind v = (s.behind v).childExits status := by
  cases h : s.child.exit <;> simp [childExits, behind, h]

theorem behind_kill (s : Session) : s.kill.behind v = (s.behind v).kill := by
  cases hlaunched : s.launched with
  | none => simp [kill, behind, hlaunched]
  | some manner =>
      cases hheeds : manner.heedsKill <;> cases hexit : s.child.exit <;>
        simp [kill, childExits, behind, hlaunched, hheeds, hexit]

theorem behind_closeStdin (s : Session) : s.closeStdin.behind v = (s.behind v).closeStdin := by
  cases hlaunched : s.launched with
  | none => simp [closeStdin, behind, hlaunched]
  | some manner =>
      cases hleaves : manner.leavesAtEnd <;> cases hexit : s.child.exit <;>
        simp [closeStdin, childExits, behind, hlaunched, hleaves, hexit]

theorem behind_stop (s : Session) : s.stop.behind v = (s.behind v).stop := rfl

theorem behind_dropOffer (s : Session) : s.dropOffer.behind v = (s.behind v).dropOffer := by
  unfold dropOffer
  simp only [behind_pump]
  split <;> rfl

theorem behind_recordFrame (s : Session) (seq : Nat) (text : Bytes) :
    (s.recordFrame seq text).behind v = (s.behind v).recordFrame (v.number seq) text :=
  behind_emit s _

theorem behind_greet (s : Session) (banner : Bytes) :
    (s.greet banner).behind v = (s.behind v).greet banner := by
  have hrecorded : (s.dropOffer.recordFrame 0 banner).behind v =
      (s.behind v).dropOffer.recordFrame 0 banner := by
    rw [behind_recordFrame, behind_dropOffer, Veil.number_zero]
  have hstate : ((s.behind v).dropOffer.recordFrame 0 banner).state =
      (s.dropOffer.recordFrame 0 banner).state := by
    rw [← hrecorded, behind_state]
  dsimp only [greet]
  rw [hstate]
  split
  · rw [behind_emit, ← hrecorded]
    rfl
  · rw [behind_stop, hrecorded]

/-! ### The worker behind a veil -/

/-- The worker takes the next call, where nothing of it is hidden. -/
theorem behind_dispatch {s : Session} (hseen : ¬ v.Covers call)
    (hwaits : call = v.call → ¬ s.GivenUp call) (rest : List Nat) :
    (s.dispatch call rest).behind v = (s.behind v).dispatch (v.index call) (v.queue rest) := by
  have hcalls := behind_getElem? hseen s
  unfold dispatch
  cases hc : s.calls[call]? with
  | none =>
      rw [hc] at hcalls
      simp only [hcalls, Option.map_none]
      rfl
  | some c =>
      rw [hc] at hcalls
      have hsame : (v.entry call c).abandoned = c.abandoned := by
        refine Veil.entry_abandoned fun heq => ?_
        simpa [GivenUp, hc] using hwaits heq
      simp only [hcalls, Option.map_some, hsame, Veil.entry_seq, Veil.entry_command]
      have hqueue : ({ s with queue := rest } : Session).behind v =
          { s.behind v with queue := v.queue rest } := rfl
      have hrecorded : ((({ s with queue := rest } : Session).emit
            (.recorded .input c.seq c.command)).behind v) =
          ({ s.behind v with queue := v.queue rest } : Session).emit
            (.recorded .input (v.number c.seq) c.command) := by
        rw [behind_emit, hqueue]
        rfl
      split
      · rw [behind_finish hseen, hqueue]
      · have hfail : (({ s.behind v with queue := v.queue rest } : Session).emit
            (.recorded .input (v.number c.seq) c.command)).writeFailure? =
          (({ s with queue := rest } : Session).emit
            (.recorded .input c.seq c.command)).writeFailure? := rfl
        rw [hfail]
        split
        · rw [← hrecorded]
          simp [behind, emit, Veil.worker, Veil.effect]
        · rw [behind_stop, behind_kill, behind_terminate, behind_finish hseen, hrecorded]

/-- The worker passes over the hidden call, which was given up. -/
theorem behind_dispatch_covered (h : v.Covers call) {s : Session} {rest : List Nat} {c : Call}
    (hqueue : s.queue = call :: rest) (hcall : s.calls[call]? = some c) (hgone : c.abandoned = true)
    : (s.dispatch call rest).behind v = s.behind v := by
  simp only [dispatch, hcall, hgone, if_true]
  rw [behind_finish_covered h]
  simp [behind, hqueue, Veil.queue_cons_covered h]

theorem behind_answer (h : ¬ v.Covers call) (s : Session) (frame : Bytes) :
    (s.answer call frame).behind v = (s.behind v).answer (v.index call) frame := by
  have hcalls := behind_getElem? h s
  unfold answer
  cases hc : s.calls[call]? with
  | none =>
      rw [hc] at hcalls
      simp only [hcalls, Option.map_none, behind_stop, behind_dropOffer]
  | some c =>
      rw [hc] at hcalls
      have hrecorded : (s.dropOffer.recordFrame c.seq frame).behind v =
          (s.behind v).dropOffer.recordFrame (v.number c.seq) frame := by
        rw [behind_recordFrame, behind_dropOffer]
      have hsame : (v.entry call c).last = c.last := rfl
      simp only [hcalls, Option.map_some, Veil.entry_seq]
      by_cases hlast : c.last = true
      · rw [if_pos hlast, if_pos (hsame.trans hlast), behind_stop, behind_finish h,
          behind_terminate, hrecorded]
      · rw [if_neg hlast, if_neg (hsame ▸ hlast), ← hrecorded, ← behind_finish h]
        rfl

theorem behind_lose (h : ¬ v.Covers call) (s : Session) (tail : Bytes) (status : Option Failure) :
    (s.lose call tail status).behind v = (s.behind v).lose (v.index call) tail status := by
  have hcalls := behind_getElem? h s
  unfold lose
  cases hc : s.calls[call]? with
  | none =>
      rw [hc] at hcalls
      simp only [hcalls, Option.map_none, behind_stop]
  | some c =>
      rw [hc] at hcalls
      have hsame : (v.entry call c).last = c.last := rfl
      simp only [hcalls, Option.map_some, Veil.entry_seq]
      by_cases hlast : c.last = true
      · rw [if_pos hlast, if_pos (hsame.trans hlast), behind_stop, behind_finish h,
          behind_terminate, behind_recordFrame]
      · rw [if_neg hlast, if_neg (hsame ▸ hlast), behind_stop, behind_terminate, behind_finish h]

theorem behind_expire (h : ¬ v.Covers call) (s : Session) :
    (s.expire call).behind v = (s.behind v).expire (v.index call) := by
  have hcalls := behind_getElem? h s
  unfold expire
  cases hc : s.calls[call]? with
  | none =>
      rw [hc] at hcalls
      simp only [hcalls, Option.map_none, behind_stop]
  | some c =>
      rw [hc] at hcalls
      simp only [hcalls, Option.map_some, Veil.entry_command]
      rw [behind_stop, behind_kill, behind_terminate, behind_finish h]
      rfl

end Session

/-- The worker comes to the hidden call. -/
def Veil.Skips (v : Veil) (s : Session) : Prop :=
  v.whole = true ∧ s.worker = .idle ∧ s.queue.head? = some v.call

instance (v : Veil) (s : Session) : Decidable (v.Skips s) :=
  inferInstanceAs (Decidable (_ ∧ _ ∧ _))

namespace Session

variable {v : Veil}

/-- **The worker moves behind a veil as it does before it**, unless it comes to the hidden call. -/
theorem behind_workerMove? {s : Session} (hskip : ¬ v.Skips s)
    (hhalf : v.whole = false → v.call ∈ s.queue → ¬ s.GivenUp v.call)
    (hworker : ∀ call deadline, s.worker = .awaiting call deadline → ¬ v.Covers call) :
    (s.behind v).workerMove? = s.workerMove?.map (behind · v) := by
  cases hw : s.worker with
  | off =>
      have hw' : (s.behind v).worker = .off := by simp [behind, hw, Veil.worker]
      simp [workerMove?, hw, hw']
  | greeting =>
      have hw' : (s.behind v).worker = .greeting := by simp [behind, hw, Veil.worker]
      simp only [workerMove?, hw, hw', behind_announced?, behind_offered?, behind_pump]
      split
      · rfl
      · simp [behind_greet]
      · simp [behind_stop, behind_terminate]
      · rfl
  | idle =>
      have hw' : (s.behind v).worker = .idle := by simp [behind, hw, Veil.worker]
      have hq' : (s.behind v).queue = v.queue s.queue := rfl
      cases hqueue : s.queue with
      | nil =>
          simp only [workerMove?, hw, hw', hq', hqueue, Veil.queue_nil, behind_announced?,
            behind_pump]
          cases s.announced? with
          | some reason => rfl
          | none =>
              cases s.pump with
              | finished tail status => simp [behind_stop, behind_terminate]
              | reading | drained => rfl
      | cons call rest =>
          have hseen : ¬ v.Covers call := by
            rintro ⟨hwhole, rfl⟩
            exact hskip ⟨hwhole, hw, by simp [hqueue]⟩
          have hwaits : call = v.call → ¬ s.GivenUp call := by
            rintro rfl
            cases hwhole : v.whole with
            | false => exact hhalf hwhole (by simp [hqueue])
            | true => exact absurd ⟨hwhole, rfl⟩ hseen
          simp [workerMove?, hw, hw', hq', hqueue, Veil.queue_cons hseen,
            behind_dispatch hseen hwaits]
  | awaiting call deadline =>
      have hw' : (s.behind v).worker = .awaiting (v.index call) deadline := by
        simp [behind, hw, Veil.worker]
      have hseen := hworker call deadline hw
      simp only [workerMove?, hw, hw', behind_announced?, behind_offered?, behind_pump]
      split
      · simp only [Option.map_some, behind_stop, behind_finish hseen]
      · simp [behind_answer hseen]
      · simp [behind_lose hseen]
      · rfl

/-! ### The others behind a veil -/

/-- The end is announced behind a veil when it is announced before it. -/
theorem behind_announce? (s : Session) : (s.behind v).announce? = s.announce?.map (behind · v) := by
  unfold announce?
  simp only [behind_reason?, behind_done]
  split <;> rfl

/-- **The reader of standard output** does not know of calls. -/
theorem behind_pumpMove? (s : Session) : (s.behind v).pumpMove? = s.pumpMove?.map (behind · v) := by
  unfold pumpMove?
  simp only [behind_launched, behind_pump, behind_announced?, behind_child, behind_complaints]
  split
  · rfl
  · split <;> rfl
  · split
    · rfl
    · by_cases hended : s.child.stdoutEnded = true
      · simp only [hended, if_true]
        rfl
      · simp only [hended, Bool.false_eq_true, if_false]
        rfl
  · split <;> rfl
  · rfl

/-- **The reader of standard error** does not know of calls either. -/
theorem behind_complaintsMove? (s : Session) :
    (s.behind v).complaintsMove? = s.complaintsMove?.map (behind · v) := by
  have hlines (lines : List Bytes) :
      (lines.map Effect.complained).map v.effect = lines.map Effect.complained := by
    simp [Function.comp_def, Veil.effect]
  unfold complaintsMove?
  simp only [behind_launched, behind_child, behind_complaints]
  split
  · simp only [Option.map_some, behind, List.map_append, hlines]
  · by_cases hline : s.complaints.line.reverse.isEmpty = true
    · simp only [hline, if_true, List.append_nil]
      rfl
    · simp [hline, behind, Veil.effect]
  · rfl

theorem behind_release (s : Session) (result : Option Failure) :
    (s.behind v).release result =
      ((s.release result).1.behind v, v.client (s.release result).2) := by
  cases h : s.launched with
  | none => simp [release, h, behind_terminate, Veil.client]
  | some manner => simp [release, h, behind_closeStdin, Veil.client]

theorem behind_shut (s : Session) : (s.behind v).shut = (s.shut.1.behind v, v.client s.shut.2) := by
  cases h : s.launched with
  | none => simp [shut, h, Veil.client]
  | some manner =>
      have hsame : ((s.behind v).closeStdin).killFailure = s.closeStdin.killFailure := by
        rw [← behind_closeStdin]
        rfl
      simp [shut, h, behind_kill, behind_closeStdin, hsame, Veil.client]

/-- **A client moves behind a veil as it does before it**, unless it waits for the hidden call. -/
theorem behind_clientStep? {c : Client} (h : ∀ call, c.call? = some call → ¬ v.Covers call)
    (s : Session) :
    (s.behind v).clientStep? (v.client c) =
      (s.clientStep? c).map fun p => (p.1.behind v, v.client p.2) := by
  cases c with
  | executing call deadline =>
      simp only [clientStep?, Veil.client, behind_outcome? (h call rfl)]
      cases s.outcome? call <;> rfl
  | quitting call deadline =>
      have hclient : v.client (.quitting call deadline) = .quitting (v.index call) deadline := rfl
      simp only [clientStep?, hclient, behind_outcome? (h call rfl)]
      cases s.outcome? call with
      | none => rfl
      | some o => simp [behind_release]
  | leaving => simp [clientStep?, Veil.client, behind_terminate]
  | shutting => simp [clientStep?, Veil.client, behind_shut]
  | releasing | reaping =>
      simp only [clientStep?, Veil.client, behind_childGone]
      by_cases hgone : s.childGone = true
      · simp only [hgone, if_true, Option.map_some, behind_terminate]
      · simp only [hgone, Bool.false_eq_true, if_false, Option.map_none]
  | closing result =>
      simp only [clientStep?, Veil.client, behind_childGone]
      by_cases hgone : s.childGone = true
      · simp only [hgone, if_true, Option.map_some]
      · simp only [hgone, Bool.false_eq_true, if_false, Option.map_none]
  | executed | hasQuit | hasClosed => rfl

/-- The time of a client is up behind a veil as before it. -/
theorem behind_expireClient {c : Client} (h : c.call? ≠ some v.call) (s : Session) :
    (s.behind v).expireClient (v.client c) =
      ((s.expireClient c).1.behind v, v.client (s.expireClient c).2) := by
  cases c with
  | executing call deadline =>
      have hne : call ≠ v.call := fun hc => h (by rw [hc]; rfl)
      simp [expireClient, Veil.client, behind_giveUp hne]
  | quitting call deadline =>
      have hne : call ≠ v.call := fun hc => h (by rw [hc]; rfl)
      simp only [expireClient, Veil.client, ← behind_giveUp hne, behind_release]
  | releasing result deadline => simp [expireClient, Veil.client, behind_kill]
  | leaving | reaping | shutting | closing | executed | hasQuit | hasClosed => rfl

end Session

end ReplBridge.Repl
