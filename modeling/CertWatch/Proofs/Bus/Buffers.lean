import CertWatch.Proofs.Bus.Moments

/-!
# What is buffered in a stream

The buffer of a stream is a queue: a listener puts an event at its end, and who polls the stream takes
one from its front. Nothing else that happens on a bus touches it while the stream exists.
-/

namespace CertWatch.Bus
set_option autoImplicit false

variable {ε : Type}

/-- The events that wait in a stream, if there is such a stream. -/
def buffer? (b : Bus ε) (s : Nat) : Option (List ε) :=
  (b.buffers.find? fun e => e.1 = s).map Prod.snd

section Operations

variable (b : Bus ε) (s s' : Nat)

/-- One queue among others is changed. -/
theorem find?_update (es : List (Nat × List ε)) (g : List ε → List ε) :
    ((es.map fun e => if e.1 = s then (e.1, g e.2) else e).find? fun e => e.1 = s').map Prod.snd =
      if s' = s then ((es.find? fun e => e.1 = s').map Prod.snd).map g
      else (es.find? fun e => e.1 = s').map Prod.snd := by
  have same : (fun e : Nat × List ε => decide (e.1 = s')) ∘
      (fun e => if e.1 = s then (e.1, g e.2) else e) = fun e => decide (e.1 = s') := by
    funext e
    rw [Function.comp_apply]
    split <;> rfl
  rw [List.find?_map, same]
  cases found : es.find? fun e => e.1 = s' with
  | none => simp
  | some e =>
    obtain rfl : e.1 = s' := by simpa using List.find?_some found
    simp only [Option.map_some]
    split <;> rfl

theorem buffer?_enqueue (event : ε) : (b.enqueue s event).buffer? s' =
    if s' = s then (b.buffer? s').map fun es => es ++ [event] else b.buffer? s' :=
  find?_update s s' b.buffers fun es => es ++ [event]

theorem buffer?_subscribe : b.subscribe.1.buffer? s =
    (b.buffer? s).or (if s = b.nextId then some [] else none) := by
  show ((b.buffers ++ [(b.nextId, [])]).find? fun e : Nat × List ε => e.1 = s).map Prod.snd = _
  rw [List.find?_append, List.find?_singleton, buffer?]
  cases b.buffers.find? fun e => e.1 = s with
  | some e => rfl
  | none => by_cases new : b.nextId = s <;> simp [new, Ne.symm]

theorem buffer?_dispose : (b.dispose s).buffer? s' = b.buffer? s' := by
  rw [dispose_eq]
  rfl

theorem buffer?_dropStream (other : s' ≠ s) : (b.dropStream s).buffer? s' = b.buffer? s' := by
  show (((b.dispose s).buffers.filter fun e => e.1 ≠ s).find? fun e => e.1 = s').map Prod.snd = _
  rw [List.find?_filter, dispose_eq, buffer?]
  congr 2
  funext e
  by_cases here : e.1 = s' <;> simp [here, other]

theorem buffer?_poll : (b.poll s).1.buffer? s' =
    if s' = s then (b.buffer? s').map List.tail else b.buffer? s' := by
  rw [poll, ← buffer?]
  split
  · rename_i event rest waiting
    have update : (fun e : Nat × List ε => if e.1 = s then (s, rest) else e) =
        fun e => if e.1 = s then (e.1, rest) else e := by
      funext e
      split
      · rename_i here
        rw [here]
      · rfl
    show ((b.buffers.map _).find? fun e => e.1 = s').map Prod.snd = _
    rw [update, find?_update s s' b.buffers fun _ => rest, ← buffer?]
    split
    · subst s'
      rw [waiting]
      rfl
    · rfl
  · rename_i none
    show b.buffer? s' = _
    split
    · subst s'
      rcases waiting : b.buffer? s with _ | _ | ⟨event, rest⟩
      · rfl
      · rfl
      · exact absurd waiting (none event rest)
    · rfl

/-- What a stream answers: the first event that waits in it, and without one whether the bus exists. -/
theorem poll_snd : (b.poll s).2 = match b.buffer? s with
    | some (event :: _) => .event event
    | _ => if b.alive then .pending else .finished := by
  rw [poll, ← buffer?]
  rcases b.buffer? s with _ | _ | ⟨event, rest⟩ <;> rfl

end Operations

/-- The answers of a stream that is asked some times in a row. -/
def answers (b : Bus ε) (s : Nat) : Nat → List (Polled ε)
  | 0 => []
  | n + 1 => (b.poll s).2 :: (b.poll s).1.answers s n

/-- When the bus is gone, a stream gives what waits in it and then ends, for good. -/
theorem answers_of_gone {b : Bus ε} {s : Nat} {es : List ε} (gone : b.alive = false)
    (waiting : b.buffer? s = some es) (n : Nat) :
    b.answers s (es.length + n) = es.map .event ++ List.replicate n .finished := by
  induction es generalizing b with
  | cons event rest ih =>
    have after : (b.poll s).1.buffer? s = some rest := by
      rw [buffer?_poll, if_pos rfl, waiting]
      rfl
    have answer : (b.poll s).2 = .event event := by rw [poll_snd, waiting]
    have more := ih ((alike_poll b s).alive.trans gone) after
    rw [List.length_cons, Nat.add_right_comm, answers, answer, more]
    rfl
  | nil =>
    rw [List.length_nil, Nat.zero_add]
    induction n generalizing b with
    | zero => rfl
    | succ n ih =>
      have after : (b.poll s).1.buffer? s = some [] := by
        rw [buffer?_poll, if_pos rfl, waiting]
        rfl
      have answer : (b.poll s).2 = .finished := by
        rw [poll_snd, waiting, gone]
        rfl
      rw [answers, answer, ih ((alike_poll b s).alive.trans gone) after]
      rfl

end CertWatch.Bus
