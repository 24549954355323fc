import Mathlib.Data.Multiset.MapFold
import Mathlib.Logic.Relation
import ScriptServer.Proofs.Server.Frame

/-!
# Accepting connections while others are served

One thread accepts connections and hands each to the workers, with a ticket that counts it. The
worker that has the ticket gives it back when the task is over, also when the task crashed, and wakes
the thread. A connection that cannot be accepted is not counted. The thread that accepts is over
when it has accepted the greatest number of connections and no ticket is out, so when all of them
were served (`reception_over`). Serving the connections one after the other is one of these runs
(`serveClients_run`).
-/

namespace ScriptServer.Server

open Script (Ending)

/-- How a task that serves a connection comes to its end. -/
inductive Service where
  | answered
  /-- The request could not be read, and was answered with 400. -/
  | rejected
  | crashed
  deriving DecidableEq

/-- A connection with the number of the call that accepted it. -/
structure Client (σ : Type) where
  number : Nat
  stream : σ
  deriving DecidableEq

/-- The connections among the first results of accepting, of which the others are errors. -/
def clients {σ : Type} (results : Nat → Option σ) (n : Nat) : List (Client σ) :=
  (List.range n).filterMap fun k => (results k).map (Client.mk k)

/-- What the thread that accepts does next. -/
inductive Post (σ : Type) where
  | accepting
  /-- Has a ticket for a connection, and hands the task to the workers. -/
  | submitting (c : Client σ)
  /-- Has handed a task over, and sees whether it was the last one. -/
  | checking
  /-- Accepts no more, and sees whether tickets are out. -/
  | waiting
  /-- Sleeps until a ticket is given back. -/
  | asleep
  | gone
  deriving DecidableEq

def Post.woken {σ : Type} : Post σ → Post σ
  | asleep => waiting
  | p => p

/-- The connection that has a ticket and is about to be handed over. -/
def Post.held {σ : Type} : Post σ → List (Client σ)
  | submitting c => [c]
  | _ => []

/-- Where the thread may be when this many connections were accepted. -/
def Post.Fits {σ : Type} (max accepted : Nat) : Post σ → Prop
  | accepting => accepted < max
  | submitting _ | checking => accepted ≤ max
  | waiting | asleep | gone => accepted = max

namespace Post

variable {σ : Type} {p : Post σ}

@[simp] theorem held_woken (p : Post σ) : p.woken.held = p.held := by
  cases p <;> rfl

@[simp] theorem woken_woken (p : Post σ) : p.woken.woken = p.woken := by
  cases p <;> rfl

theorem woken_ne_asleep (p : Post σ) : p.woken ≠ .asleep := by
  cases p <;> exact nofun

theorem gone_of_woken (h : p.woken = .gone) : p = .gone := by
  cases p <;> simp_all [woken]

theorem fits_woken {max accepted : Nat} (h : p.Fits max accepted) :
    p.woken.Fits max accepted := by
  cases p <;> exact h

end Post

/-- A listener whose connections are served by workers. -/
structure Reception (σ : Type) where
  post : Post σ
  listener : Listener
  /-- The number of times that the thread has called to accept. -/
  calls : Nat
  /-- The connections that were handed over, in this order. -/
  submitted : List (Client σ)
  /-- The tasks that no worker has taken yet. -/
  queue : List (Client σ)
  running : Multiset (Client σ)
  /-- The tasks that are over and still have their tickets. -/
  ended : Multiset (Client σ × Service)
  /-- The tasks that have given their tickets back. -/
  handled : Multiset (Client σ × Service)

namespace Reception

variable {σ : Type}

def start : Reception σ := ⟨.accepting, .start, 0, [], [], 0, 0, 0⟩

/-- What one thread does at a time, with `max` connections to serve and these results of accepting
one. There may be any number of workers, each of which takes the first task that is left. -/
inductive Step (max : Nat) (results : Nat → Option σ) : Reception σ → Reception σ → Prop where
  | acceptFails {t : Reception σ} (post : t.post = .accepting) (error : results t.calls = none) :
    Step max results t { t with calls := t.calls + 1 }
  -- the number of accepted connections is the thread's own, so it does not matter that it is counted
  -- together with the ticket
  | accept {t : Reception σ} {stream : σ} (post : t.post = .accepting)
    (accepted : results t.calls = some stream) :
    Step max results t { t with
      post := .submitting ⟨t.calls, stream⟩
      listener := t.listener.accept
      calls := t.calls + 1 }
  | submit {t : Reception σ} {c : Client σ} (post : t.post = .submitting c) :
    Step max results t { t with
      post := .checking, submitted := t.submitted ++ [c], queue := t.queue ++ [c] }
  | goOn {t : Reception σ} (post : t.post = .checking) (more : t.listener.isFull max = false) :
    Step max results t { t with post := .accepting }
  | stop {t : Reception σ} (post : t.post = .checking) (full : t.listener.isFull max = true) :
    Step max results t { t with post := .waiting }
  | take {t : Reception σ} {c : Client σ} {rest : List (Client σ)} (first : t.queue = c :: rest) :
    Step max results t { t with queue := rest, running := c ::ₘ t.running }
  | finish {t : Reception σ} {c : Client σ} {rest : Multiset (Client σ)}
    (who : t.running = c ::ₘ rest) (how : Service) :
    Step max results t { t with running := rest, ended := (c, how) ::ₘ t.ended }
  | giveBack {t : Reception σ} {e : Client σ × Service} {rest : Multiset (Client σ × Service)}
    (who : t.ended = e ::ₘ rest) :
    Step max results t { t with
      post := t.post.woken
      listener := t.listener.finish
      ended := rest
      handled := e ::ₘ t.handled }
  | sleep {t : Reception σ} (post : t.post = .waiting) (busy : 0 < t.listener.inFlight) :
    Step max results t { t with post := .asleep }
  /-- The thread may wake for no reason. -/
  | stir {t : Reception σ} (post : t.post = .asleep) :
    Step max results t { t with post := .waiting }
  | leave {t : Reception σ} (post : t.post = .waiting) (idle : t.listener.inFlight = 0) :
    Step max results t { t with post := .gone }

abbrev Steps (max : Nat) (results : Nat → Option σ) : Reception σ → Reception σ → Prop :=
  Relation.ReflTransGen (Step max results)

variable {max : Nat} {results : Nat → Option σ} {t t' : Reception σ}

/-! ### Serving one after the other -/

/-- A connection that is accepted and served before anything else is done. -/
theorem one_run {stream : σ} (post : t.post = .accepting) (queue : t.queue = [])
    (accepted : results t.calls = some stream) (how : Service) :
    Steps max results t { t with
      post := .checking
      listener := t.listener.accept.finish
      calls := t.calls + 1
      submitted := t.submitted ++ [⟨t.calls, stream⟩]
      queue := []
      handled := (⟨t.calls, stream⟩, how) ::ₘ t.handled } := by
  have ticket : Steps max results t { t with
      post := .submitting ⟨t.calls, stream⟩
      listener := t.listener.accept
      calls := t.calls + 1 } := .single (.accept post accepted)
  have handed := ticket.tail (.submit rfl)
  dsimp only at handed
  rw [queue] at handed
  exact ((handed.tail (.take rfl)).tail (.finish rfl how)).tail (.giveBack rfl)

/-- Serving clients to the end is a run in which each is served before the next one is accepted. -/
theorem serveClients_run {table : Route.Table} {streams : List Http.Stream} {s s' : Server}
    {results : Nat → Option Http.Stream} {t : Reception Http.Stream}
    (limit : s.pool.settings.maxRequests = max) (coming : ∀ k, results (t.calls + k) = streams[k]?)
    (post : t.post = .accepting) (queue : t.queue = []) (idle : t.listener.inFlight = 0)
    (done : serveClients table streams t.listener s = (.ok (), s')) :
    ∃ t', Steps max results t t' ∧ t'.post = .gone ∧ t'.listener.isOver max = true := by
  induction streams generalizing s t with
  | nil => cases done
  | cons stream streams ih =>
    have served (how : Service) := @one_run _ max results t stream post queue (coming 0) how
    have idle' : t.listener.accept.finish.inFlight = 0 := idle
    have steady := serveConnection_steady table stream
      { s with world := { s.world with clients := streams } }
    unfold serveClients at done
    dsimp only at done
    revert steady done
    obtain ⟨reply, s₁⟩ := serveConnection table stream
      { s with world := { s.world with clients := streams } }
    intro steady done
    cases reply with
    | none => cases done
    | some bytes =>
      have limit' : s₁.pool.settings.maxRequests = max :=
        (congrArg Settings.maxRequests steady.settings).trans limit
      dsimp only at done
      rw [limit'] at done
      split at done
      · next isOver =>
        have full : t.listener.accept.finish.isFull max = true :=
          (Bool.and_eq_true_iff.mp isOver).1
        exact ⟨_, ((served .answered).tail (.stop rfl full)).tail (.leave rfl idle'), rfl, isOver⟩
      · next isOver =>
        have more : t.listener.accept.finish.isFull max = false := by
          simpa [Listener.isOver, idle'] using isOver
        obtain ⟨t', steps, gone⟩ := ih
          (t := { t with
            post := .accepting
            listener := t.listener.accept.finish
            calls := t.calls + 1
            submitted := t.submitted ++ [⟨t.calls, stream⟩]
            queue := []
            handled := (⟨t.calls, stream⟩, .answered) ::ₘ t.handled })
          (s := { s₁ with world := { s₁.world with replies := s₁.world.replies ++ [bytes] } })
          limit' (fun k => by rw [Nat.add_right_comm]; exact coming (k + 1)) rfl rfl idle' done
        exact ⟨t', ((served .answered).tail (.goOn rfl more)).trans steps, gone⟩

/-! ### The accounts of a listener -/

theorem clients_succ_of_none {n : Nat} (error : results n = none) :
    clients results (n + 1) = clients results n := by
  simp [clients, List.range_succ, error]

theorem clients_succ_of_some {n : Nat} {stream : σ} (accepted : results n = some stream) :
    clients results (n + 1) = clients results n ++ [⟨n, stream⟩] := by
  simp [clients, List.range_succ, accepted]

theorem clients_grow {m n : Nat} (le : m ≤ n) : clients results m <+: clients results n := by
  obtain ⟨k, rfl⟩ := Nat.exists_eq_add_of_le le
  rw [clients, clients, List.range_add, List.filterMap_append]
  exact List.prefix_append _ _

theorem clients_nodup (n : Nat) : (clients results n).Nodup := by
  refine List.Nodup.filterMap (fun i j c hi hj => ?_) List.nodup_range
  obtain ⟨x, -, rfl⟩ := Option.map_eq_some_iff.mp hi
  obtain ⟨y, -, same⟩ := Option.map_eq_some_iff.mp hj
  exact congrArg Client.number same.symm

/-- The connections whose tickets are out. -/
def tickets (t : Reception σ) : Multiset (Client σ) :=
  ↑(t.post.held ++ t.queue) + t.running + t.ended.map Prod.fst

/-- The counts of a listener are those of its connections. -/
structure Counted (max : Nat) (results : Nat → Option σ) (t : Reception σ) : Prop where
  inFlight : t.listener.inFlight = t.tickets.card
  accepted : t.listener.accepted = (clients results t.calls).length
  order : t.submitted ++ t.post.held = clients results t.calls
  account : (clients results t.calls : Multiset (Client σ)) = t.tickets + t.handled.map Prod.fst
  room : t.post.Fits max t.listener.accepted
  asleep : t.post = .asleep → 0 < t.listener.inFlight
  gone : t.post = .gone → t.listener.inFlight = 0

theorem Counted.start (some : 0 < max) : Counted max results (start : Reception σ) where
  inFlight := rfl
  accepted := rfl
  order := rfl
  account := rfl
  room := some
  asleep h := nomatch h
  gone h := nomatch h

/-- Handing a task over, taking it and coming to its end leave its ticket out. -/
theorem Counted.keeps (h : Counted max results t) (calls : t'.calls = t.calls)
    (listener : t'.listener = t.listener) (handled : t'.handled = t.handled)
    (tickets : t'.tickets = t.tickets)
    (order : t'.submitted ++ t'.post.held = t.submitted ++ t.post.held)
    (room : t'.post.Fits max t.listener.accepted)
    (asleep : t'.post = .asleep → 0 < t.listener.inFlight)
    (gone : t'.post = .gone → t.listener.inFlight = 0) : Counted max results t' := by
  refine ⟨?_, ?_, ?_, ?_, ?_, ?_, ?_⟩
  · rw [listener, tickets, h.inFlight]
  · rw [listener, calls, h.accepted]
  · rw [order, calls, h.order]
  · rw [calls, tickets, handled, h.account]
  · rwa [listener]
  · rwa [listener]
  · rwa [listener]

/-- The thread goes on without a ticket being drawn or given back. -/
theorem Counted.moves {p : Post σ} (h : Counted max results t) (held : p.held = t.post.held)
    (room : p.Fits max t.listener.accepted) (asleep : p = .asleep → 0 < t.listener.inFlight)
    (gone : p = .gone → t.listener.inFlight = 0) : Counted max results { t with post := p } := by
  refine h.keeps rfl rfl rfl ?_ ?_ room asleep gone
  · simp only [tickets, held]
  · simp only [held]

theorem accepted_of_isFull {l : Listener} (fits : l.accepted ≤ max)
    (full : l.isFull max = true) : l.accepted = max := by
  simp only [Listener.isFull, Bool.and_eq_true, decide_eq_true_eq] at full
  exact Nat.le_antisymm fits full.2

theorem accepted_of_not_isFull {l : Listener} (some : 0 < max) (more : l.isFull max = false) :
    l.accepted < max := by
  simpa [Listener.isFull, some] using more

theorem Counted.step (some : 0 < max) (h : Counted max results t) (s : Step max results t t') :
    Counted max results t' := by
  have room := h.room
  cases s with
  | acceptFails post error =>
    obtain ⟨inFlight, accepted, order, account, -, asleep, gone⟩ := h
    rw [← clients_succ_of_none error] at accepted order account
    exact ⟨inFlight, accepted, order, account, room, asleep, gone⟩
  | @accept stream post accepted =>
    have next := clients_succ_of_some accepted
    have drawn : tickets { t with
        post := .submitting ⟨t.calls, stream⟩
        listener := t.listener.accept
        calls := t.calls + 1 } = ⟨t.calls, stream⟩ ::ₘ t.tickets := by
      simp [tickets, post, Post.held, ← Multiset.cons_coe]
    rw [post] at room
    refine ⟨?_, ?_, ?_, ?_, room, nofun, nofun⟩
    · rw [drawn, Multiset.card_cons, ← h.inFlight]
      rfl
    · rw [next, List.length_append, ← h.accepted]
      rfl
    · rw [next, ← h.order]
      simp [post, Post.held]
    · rw [drawn, next, ← Multiset.coe_add, h.account, Multiset.cons_add, Multiset.add_comm]
      rfl
  | @submit c post =>
    rw [post] at room
    refine h.keeps rfl rfl rfl ?_ ?_ room nofun nofun
    · have moved : (↑(t.queue ++ [c]) : Multiset (Client σ)) = ↑(c :: t.queue) :=
        Multiset.coe_eq_coe.mpr List.perm_append_comm
      simp only [tickets, post, Post.held, List.nil_append, List.singleton_append, moved]
    · simp [post, Post.held]
  | goOn post more =>
    exact h.moves (by simp [post, Post.held]) (accepted_of_not_isFull some more) nofun nofun
  | stop post full =>
    rw [post] at room
    exact h.moves (by simp [post, Post.held]) (accepted_of_isFull room full) nofun nofun
  | @take c rest first =>
    refine h.keeps rfl rfl rfl ?_ rfl room h.asleep h.gone
    have moved : (↑(t.post.held ++ c :: rest) : Multiset (Client σ)) =
        c ::ₘ ↑(t.post.held ++ rest) := Multiset.coe_eq_coe.mpr List.perm_middle
    simp only [tickets, first, moved, Multiset.cons_add, Multiset.add_cons]
  | finish who how =>
    refine h.keeps rfl rfl rfl ?_ rfl room h.asleep h.gone
    simp [tickets, who]
  | @giveBack e rest who =>
    have returned : t.tickets = e.1 ::ₘ tickets { t with
        post := t.post.woken
        listener := t.listener.finish
        ended := rest
        handled := e ::ₘ t.handled } := by
      simp only [tickets, who, Post.held_woken, Multiset.map_cons, Multiset.add_cons]
    refine ⟨?_, h.accepted, ?_, ?_, Post.fits_woken room, ?_, ?_⟩
    · rw [Listener.finish, h.inFlight, returned, Multiset.card_cons, Nat.add_sub_cancel]
      rfl
    · rw [Post.held_woken, h.order]
    · rw [h.account, returned, Multiset.map_cons, Multiset.cons_add, Multiset.add_cons]
    · exact fun asleep => absurd asleep (Post.woken_ne_asleep _)
    · intro gone
      rw [Listener.finish, h.gone (Post.gone_of_woken gone)]
  | sleep post busy =>
    rw [post] at room
    exact h.moves (by simp [post, Post.held]) room (fun _ => busy) nofun
  | stir post =>
    rw [post] at room
    exact h.moves (by simp [post, Post.held]) room nofun nofun
  | leave post idle =>
    rw [post] at room
    exact h.moves (by simp [post, Post.held]) room nofun (fun _ => idle)

theorem Steps.counted (some : 0 < max) (run : Steps max results start t) :
    Counted max results t := by
  induction run with
  | refl => exact .start some
  | tail _ s ih => exact ih.step some s

/-! ### The end of a listener -/

theorem Counted.accepted_le (h : Counted max results t) : t.listener.accepted ≤ max := by
  have room := h.room
  cases post : t.post with
  | accepting =>
    rw [post] at room
    exact Nat.le_of_lt room
  | submitting | checking =>
    rw [post] at room
    exact room
  | waiting | asleep | gone =>
    rw [post] at room
    exact Nat.le_of_eq room

theorem Counted.submitted_first (h : Counted max results t) {n : Nat} (le : t.calls ≤ n) :
    t.submitted <+: (clients results n).take max := by
  have first : t.submitted <+: clients results t.calls := ⟨t.post.held, h.order⟩
  refine List.prefix_take_iff.mpr ⟨first.trans (clients_grow le), ?_⟩
  exact first.length_le.trans (h.accepted ▸ h.accepted_le)

/-- When the thread is over it has handed over all it was to accept, and no ticket is out. -/
theorem Counted.of_gone (h : Counted max results t) (gone : t.post = .gone) :
    t.submitted.length = max ∧ t.handled.map Prod.fst = t.submitted := by
  have room := h.room
  have order := h.order
  have alone : t.post.held = [] := by rw [gone]; rfl
  rw [alone, List.append_nil] at order
  rw [gone] at room
  have none : t.tickets = 0 := Multiset.card_eq_zero.mp (h.inFlight.symm.trans (h.gone gone))
  have account := h.account
  rw [none, Multiset.zero_add] at account
  exact ⟨by rw [order, ← h.accepted, room], by rw [order, account]⟩

/-- **The end of a listener.** Whatever threads have done, the connections that were handed over are
the first ones that were accepted, each once and no more than `max` of them, and the count is that of
the tickets that are out, so that none is given back to a count of zero. The thread sleeps only while
a ticket is out, and when it is over none is, and all of the first `max` connections were
handled. -/
theorem reception_over (some : 0 < max) (run : Steps max results start t) :
    t.submitted.Nodup ∧ (∀ n, t.calls ≤ n → t.submitted <+: (clients results n).take max) ∧
      t.listener.inFlight = t.tickets.card ∧
      (↑(t.submitted ++ t.post.held) : Multiset (Client σ)) =
        t.tickets + t.handled.map Prod.fst ∧
      (∀ e rest, t.ended = e ::ₘ rest →
        t.listener.finish.inFlight + 1 = t.listener.inFlight) ∧
      (t.post = .asleep → 0 < t.listener.inFlight) ∧
      (t.post = .gone → t.listener.inFlight = 0 ∧ t.submitted.length = max ∧
        (∀ n, t.calls ≤ n → t.submitted = (clients results n).take max) ∧
        t.handled.map Prod.fst = t.submitted) := by
  have h := Steps.counted some run
  have first : t.submitted <+: clients results t.calls := ⟨t.post.held, h.order⟩
  refine ⟨first.sublist.nodup (clients_nodup _), fun n le => h.submitted_first le, h.inFlight,
    by rw [h.order, h.account], fun e rest who => ?_, h.asleep, fun gone => ?_⟩
  · have out : 0 < t.listener.inFlight := by
      rw [h.inFlight, tickets, who]
      simp
    exact Nat.sub_add_cancel out
  · obtain ⟨length, handled⟩ := h.of_gone gone
    refine ⟨h.gone gone, length, fun n le => ?_, handled⟩
    refine (h.submitted_first le).eq_of_length_le ?_
    rw [length]
    exact List.length_take_le _ _

/-- Three calls fail, the first of two connections crashes its task, and the thread, which sleeps
while the first ticket comes back, goes to sleep again. -/
theorem reception_over_pair :
    let results : Nat → Option String
      | 1 => some "GET / HTTP/1.1"
      | 4 => some "GET"
      | _ => none
    ∃ t, Steps 2 results start t ∧ t.post = .gone ∧ t.listener.inFlight = 0 ∧
      t.handled = {(⟨4, "GET"⟩, .rejected), (⟨1, "GET / HTTP/1.1"⟩, .crashed)} ∧
      t.submitted = (clients results 9).take 2 := by
  intro results
  have first : Steps 2 results start ⟨.accepting, ⟨1, 1⟩, 4, [⟨1, "GET / HTTP/1.1"⟩],
      [⟨1, "GET / HTTP/1.1"⟩], 0, 0, 0⟩ :=
    ((((((Relation.ReflTransGen.single (.acceptFails rfl rfl)).tail (.accept rfl rfl)).tail
      (.submit rfl)).tail (.goOn rfl rfl)).tail (.acceptFails rfl rfl)).tail
      (.acceptFails rfl rfl))
  have second : Steps 2 results start ⟨.asleep, ⟨2, 2⟩, 5,
      [⟨1, "GET / HTTP/1.1"⟩, ⟨4, "GET"⟩], [⟨4, "GET"⟩], 0,
      (⟨1, "GET / HTTP/1.1"⟩, .crashed) ::ₘ 0, 0⟩ :=
    (((((first.tail (.accept rfl rfl)).tail (.submit rfl)).tail (.stop rfl rfl)).tail
      (.take rfl)).tail (.finish rfl .crashed)).tail (.sleep rfl Nat.two_pos)
  have last : Steps 2 results start ⟨.gone, ⟨2, 0⟩, 5,
      [⟨1, "GET / HTTP/1.1"⟩, ⟨4, "GET"⟩], [], 0, 0,
      (⟨4, "GET"⟩, .rejected) ::ₘ (⟨1, "GET / HTTP/1.1"⟩, .crashed) ::ₘ 0⟩ :=
    (((((second.tail (.giveBack rfl)).tail (.sleep rfl Nat.one_pos)).tail (.take rfl)).tail
      (.finish rfl .rejected)).tail (.giveBack rfl)).tail (.leave rfl rfl)
  obtain ⟨-, -, -, -, -, -, gone⟩ := reception_over Nat.two_pos last
  exact ⟨_, last, rfl, (gone rfl).1, rfl, (gone rfl).2.2.1 9 (by decide)⟩

/-! ### Coming to the end -/

def work (t : Reception σ) : Nat := 3 * t.queue.length + 2 * t.running.card + t.ended.card

/-- When all tasks come to their ends, all tickets are given back. -/
theorem workers_run (how : Service) {n : Nat} (t : Reception σ) (left : t.work = n) :
    ∃ t', Steps max results t t' ∧ t'.work = 0 ∧
      (t'.post = t.post ∨ t'.post = t.post.woken) := by
  induction n generalizing t with
  | zero => exact ⟨t, .refl, left, .inl rfl⟩
  | succ n ih =>
    have next (t₁ : Reception σ) (step : Step max results t t₁) (less : t₁.work = n)
        (post : t₁.post = t.post ∨ t₁.post = t.post.woken) :
        ∃ t', Steps max results t t' ∧ t'.work = 0 ∧
          (t'.post = t.post ∨ t'.post = t.post.woken) := by
      obtain ⟨t', steps, done, post'⟩ := ih t₁ less
      refine ⟨t', .head step steps, done, ?_⟩
      rcases post' with post' | post'
      · rwa [post']
      · rcases post with post | post
        · exact .inr (by rw [post', post])
        · exact .inr (by rw [post', post, Post.woken_woken])
    -- a task is taken, or comes to its end, or gives its ticket back: one less is left to do
    cases queue : t.queue with
    | cons c rest =>
      refine next _ (.take queue) ?_ (.inl rfl)
      simp only [work, queue, List.length_cons, Multiset.card_cons] at left ⊢
      omega
    | nil =>
      rcases t.running.empty_or_exists_mem with idle | ⟨c, mem⟩
      · rcases t.ended.empty_or_exists_mem with none | ⟨e, mem⟩
        · simp [work, queue, idle, none] at left
        · obtain ⟨rest, who⟩ := Multiset.exists_cons_of_mem mem
          refine next _ (.giveBack who) ?_ (.inr rfl)
          simp only [work, who, Multiset.card_cons] at left ⊢
          omega
      · obtain ⟨rest, who⟩ := Multiset.exists_cons_of_mem mem
        refine next _ (.finish who how) ?_ (.inl rfl)
        simp only [work, who, Multiset.card_cons] at left ⊢
        omega

/-- Without work for the workers and a connection to hand over no ticket is out. -/
theorem Counted.idle (h : Counted max results t) (held : t.post.held = []) (none : t.work = 0) :
    t.listener.inFlight = 0 := by
  simp only [work, Nat.add_eq_zero_iff, Nat.mul_eq_zero, List.length_eq_zero_iff,
    Multiset.card_eq_zero] at none
  obtain ⟨⟨queue, running⟩, ended⟩ := none
  rw [h.inFlight, tickets, held]
  simp_all

/-- A thread that has accepted all it was to accept comes to its end when all tasks do. -/
theorem reception_ends (some : 0 < max) (run : Steps max results start t)
    (full : t.listener.accepted = max) (how : Service) :
    ∃ t', Steps max results t t' ∧ t'.post = .gone := by
  have isFull : t.listener.isFull max = true := by simp [Listener.isFull, some, full]
  have waits : ∃ t₁, Steps max results t t₁ ∧
      (t₁.post = .waiting ∨ t₁.post = .asleep ∨ t₁.post = .gone) := by
    have room := (Steps.counted some run).room
    cases post : t.post with
    | accepting =>
      rw [post, full] at room
      exact absurd room (Nat.lt_irrefl _)
    | submitting c =>
      have handed : Steps max results t { t with
          post := .checking, submitted := t.submitted ++ [c], queue := t.queue ++ [c] } :=
        .single (.submit post)
      exact ⟨_, handed.tail (.stop rfl isFull), .inl rfl⟩
    | checking => exact ⟨_, .single (.stop post isFull), .inl rfl⟩
    | waiting => exact ⟨t, .refl, .inl post⟩
    | asleep => exact ⟨t, .refl, .inr (.inl post)⟩
    | gone => exact ⟨t, .refl, .inr (.inr post)⟩
  obtain ⟨t₁, waiting, post⟩ := waits
  obtain ⟨t₂, worked, none, post'⟩ :
      ∃ t₂, Steps max results t₁ t₂ ∧ t₂.work = 0 ∧
        (t₂.post = t₁.post ∨ t₂.post = t₁.post.woken) := workers_run how t₁ rfl
  have there := waiting.trans worked
  have counted := Steps.counted some (run.trans there)
  have post₂ : t₂.post = .waiting ∨ t₂.post = .asleep ∨ t₂.post = .gone := by
    rcases post with post | post | post <;> rw [post] at post' <;> rcases post' with post' | post'
    · exact .inl post'
    · exact .inl post'
    · exact .inr (.inl post')
    · exact .inl post'
    · exact .inr (.inr post')
    · exact .inr (.inr post')
  rcases post₂ with post | post | post
  · have idle := counted.idle (by rw [post]; rfl) none
    exact ⟨_, there.tail (.leave post idle), rfl⟩
  · have idle := counted.idle (by rw [post]; rfl) none
    exact absurd (counted.asleep post) (by rw [idle]; exact Nat.lt_irrefl 0)
  · exact ⟨t₂, there, post⟩

end Reception

end ScriptServer.Server
