import Mathlib.Data.List.Basic

/-!
# Interleaved calls

An asynchronous program.  A call runs without interruption from one `await` to the next, on the memory that
all calls share; what it awaits is an operation on things outside that memory.  Between the issue of an
operation, its effect and the continuation of the call, other calls proceed.

* **`Program`** is such a program, **`Program.step`** one step of one of its calls;
* **`Stepped`** and **`Program.step_spec`** say what a step does, by the calls before and after the one
  that it is about;
* **`Program.alone`** is one call while no other proceeds; **`Program.steps_alone`**: it is a run of the program;
* **`gather`** is what the calls hold together, up to their order.
-/

/-- Where a block of code ends: at an `await`, with the point where the call goes on, or at the end. -/
inductive Pause (ω π τ : Type)
  | await (operation : ω) (point : π)
  | finish (outcome : τ)
  deriving DecidableEq

/-- How far a call is: its operation is issued, or has been made, or the call has ended. -/
inductive Progress (ω α π τ : Type)
  | waiting (operation : ω) (point : π)
  | ready (answer : α) (point : π)
  | finished (outcome : τ)
  deriving DecidableEq

/-- A call, and how far it is. -/
structure Thread (κ ω α π τ : Type) where
  call : κ
  progress : Progress ω α π τ
  deriving DecidableEq

/-- The memory of the program, what is outside of it, and the calls that have been made. -/
structure World (κ μ ρ ω α π τ : Type) where
  memory : μ
  remote : ρ
  threads : List (Thread κ ω α π τ)

/-- **A program**: the blocks of code of its calls, and the operations that they await. -/
structure Program (κ μ ρ ω α π τ ι : Type) where
  enter : κ → μ → Pause ω π τ × μ
  resume : π → α → μ → Pause ω π τ × μ
  perform : ω → ι → ρ → α × ρ

/-- One step: a call is made, its operation takes effect, or it goes on. -/
inductive Turn (κ ι : Type)
  | enter (call : κ)
  | perform (pos : ℕ) (input : ι)
  | resume (pos : ℕ)

variable {κ μ ρ ω α π τ ι : Type}

/-- How far a call is after a block of code. -/
def Pause.progress : Pause ω π τ → Progress ω α π τ
  | .await operation point => .waiting operation point
  | .finish outcome => .finished outcome

@[simp] theorem Pause.progress_await (operation : ω) (point : π) :
    (Pause.await operation point : Pause ω π τ).progress
      = (.waiting operation point : Progress ω α π τ) := rfl

@[simp] theorem Pause.progress_finish (outcome : τ) :
    (Pause.finish outcome : Pause ω π τ).progress = (.finished outcome : Progress ω α π τ) := rfl

namespace Program

variable (program : Program κ μ ρ ω α π τ ι)

/-- **One step.**  A step of a call that cannot make it changes nothing. -/
def step (world : World κ μ ρ ω α π τ) : Turn κ ι → World κ μ ρ ω α π τ
  | .enter call =>
    let (pause, memory) := program.enter call world.memory
    { world with memory := memory, threads := world.threads ++ [⟨call, pause.progress⟩] }
  | .perform pos input =>
    match world.threads[pos]? with
    | some ⟨call, .waiting operation point⟩ =>
      let (answer, remote) := program.perform operation input world.remote
      { world with remote := remote, threads := world.threads.set pos ⟨call, .ready answer point⟩ }
    | _ => world
  | .resume pos =>
    match world.threads[pos]? with
    | some ⟨call, .ready answer point⟩ =>
      let (pause, memory) := program.resume point answer world.memory
      { world with memory := memory, threads := world.threads.set pos ⟨call, pause.progress⟩ }
    | _ => world

/-- One step, as a machine that does not fail. -/
def exec (world : World κ μ ρ ω α π τ) (action : Turn κ ι) :
    Except Empty (Unit × World κ μ ρ ω α π τ) :=
  .ok ((), program.step world action)

end Program

/-- **What a step does.** -/
inductive Stepped (program : Program κ μ ρ ω α π τ ι) (world : World κ μ ρ ω α π τ) :
    Turn κ ι → World κ μ ρ ω α π τ → Prop
  | entered (call : κ) {pause : Pause ω π τ} {memory : μ}
      (block : program.enter call world.memory = (pause, memory)) :
      Stepped program world (.enter call)
        ⟨memory, world.remote, world.threads ++ [⟨call, pause.progress⟩]⟩
  | performed (pre post : List (Thread κ ω α π τ)) (call : κ) (operation : ω) (point : π) (input : ι)
      (threads : world.threads = pre ++ ⟨call, .waiting operation point⟩ :: post) {answer : α}
      {remote : ρ} (effect : program.perform operation input world.remote = (answer, remote)) :
      Stepped program world (.perform pre.length input)
        ⟨world.memory, remote, pre ++ ⟨call, .ready answer point⟩ :: post⟩
  | resumed (pre post : List (Thread κ ω α π τ)) (call : κ) (answer : α) (point : π)
      (threads : world.threads = pre ++ ⟨call, .ready answer point⟩ :: post) {pause : Pause ω π τ}
      {memory : μ} (block : program.resume point answer world.memory = (pause, memory)) :
      Stepped program world (.resume pre.length)
        ⟨memory, world.remote, pre ++ ⟨call, pause.progress⟩ :: post⟩
  | idle (action : Turn κ ι) : Stepped program world action world

/-- A list around one of its positions. -/
theorem split_of_getElem? {β : Type} {l : List β} {pos : ℕ} {b : β} (h : l[pos]? = some b) :
    ∃ pre post, l = pre ++ b :: post ∧ pre.length = pos ∧ ∀ c, l.set pos c = pre ++ c :: post := by
  obtain ⟨hlt, hget⟩ := List.getElem?_eq_some_iff.mp h
  have hlength : (l.take pos).length = pos := List.length_take_of_le (Nat.le_of_lt hlt)
  have hsplit : l = l.take pos ++ b :: l.drop (pos + 1) := by
    rw [← hget, List.getElem_cons_drop, List.take_append_drop]
  refine ⟨l.take pos, l.drop (pos + 1), hsplit, hlength, fun c => ?_⟩
  rw [List.set_eq_take_append_cons_drop, if_pos hlt]

/-- What stands between two lists is at the position after the first. -/
theorem getElem?_between {β : Type} (pre post : List β) (b : β) : (pre ++ b :: post)[pre.length]? = some b := by
  rw [List.getElem?_append_right (Nat.le_refl _), Nat.sub_self]
  rfl

/-- An element of a list of which one position has changed is the new one, or was there before. -/
theorem getElem?_around {β : Type} {pre post : List β} {b x : β} {pos : ℕ} (h : (pre ++ b :: post)[pos]? = some x)
    (b' : β) : (pos = pre.length ∧ x = b) ∨ (pre ++ b' :: post)[pos]? = some x := by
  by_cases hpos : pos = pre.length
  · subst hpos
    rw [getElem?_between] at h
    exact Or.inl ⟨rfl, (Option.some.inj h).symm⟩
  · refine Or.inr ?_
    rcases Nat.lt_or_gt_of_ne hpos with hlt | hgt
    · rw [List.getElem?_append_left hlt] at h ⊢
      exact h
    · rw [List.getElem?_append_right (Nat.le_of_lt hgt)] at h ⊢
      obtain ⟨n, hn⟩ : ∃ n, pos - pre.length = n + 1 := ⟨pos - pre.length - 1, by omega⟩
      rw [hn] at h ⊢
      exact h

theorem mem_around {β : Type} {pre post : List β} {b x : β} (h : x ∈ pre ++ b :: post) (b' : β) :
    x = b ∨ x ∈ pre ++ b' :: post := by
  rcases List.mem_append.mp h with hx | hx
  · exact Or.inr (List.mem_append_left _ hx)
  · rcases List.mem_cons.mp hx with rfl | hx
    · exact Or.inl rfl
    · exact Or.inr (List.mem_append_right _ (List.mem_cons_of_mem _ hx))

/-- A call stays, however far it is. -/
theorem exists_call_around (P : κ → Prop) {pre post : List (Thread κ ω α π τ)} {call : κ}
    {progress progress' : Progress ω α π τ} (h : ∃ thread ∈ pre ++ ⟨call, progress⟩ :: post, P thread.call) :
    ∃ thread ∈ pre ++ ⟨call, progress'⟩ :: post, P thread.call := by
  obtain ⟨thread, hthread, hcall⟩ := h
  rcases mem_around hthread ⟨call, progress'⟩ with rfl | hthread
  · exact ⟨⟨call, progress'⟩, by simp, hcall⟩
  · exact ⟨thread, hthread, hcall⟩

/-- **Every step is one of these.** -/
theorem Program.step_spec (program : Program κ μ ρ ω α π τ ι) (world : World κ μ ρ ω α π τ)
    (action : Turn κ ι) : Stepped program world action (program.step world action) := by
  cases action with
  | enter call => exact .entered call rfl
  | perform pos input =>
      simp only [step]
      split
      · rename_i call operation point hget
        obtain ⟨pre, post, hthreads, rfl, hset⟩ := split_of_getElem? hget
        rw [hset]
        exact .performed pre post call operation point input hthreads rfl
      · exact .idle _
  | resume pos =>
      simp only [step]
      split
      · rename_i call answer point hget
        obtain ⟨pre, post, hthreads, rfl, hset⟩ := split_of_getElem? hget
        rw [hset]
        exact .resumed pre post call answer point hthreads rfl
      · exact .idle _

/-- Inversion of a step. -/
theorem Program.exec_spec {program : Program κ μ ρ ω α π τ ι} {world world' : World κ μ ρ ω α π τ}
    {action : Turn κ ι} {reply : Unit} (h : program.exec world action = .ok (reply, world')) :
    Stepped program world action world' := by
  cases h
  exact program.step_spec world action

/-! ### One call -/

/-- A call between two of its blocks, with the memory and what is outside of it. -/
structure Lone (μ ρ ω π τ : Type) where
  pause : Pause ω π τ
  memory : μ
  remote : ρ

namespace Program

variable (program : Program κ μ ρ ω α π τ ι)

/-- What the call awaits takes effect, and the call goes on. -/
def advance (s : Lone μ ρ ω π τ) (input : ι) : Lone μ ρ ω π τ :=
  match s.pause with
  | .finish _ => s
  | .await operation point =>
    let (answer, remote) := program.perform operation input s.remote
    let (pause, memory) := program.resume point answer s.memory
    ⟨pause, memory, remote⟩

/-- **A call that runs alone**, on some inputs of its operations; it takes no more than it needs. -/
def alone (s : Lone μ ρ ω π τ) (inputs : List ι) : Lone μ ρ ω π τ := inputs.foldl program.advance s

/-- Each step of a call that runs alone meets a condition. -/
def along (Q : Lone μ ρ ω π τ → ι → Prop) (s : Lone μ ρ ω π τ) : List ι → Prop
  | [] => True
  | input :: inputs => Q s input ∧ along Q (program.advance s input) inputs

/-- A call that is made. -/
def made (call : κ) (memory : μ) (remote : ρ) : Lone μ ρ ω π τ :=
  let (pause, memory) := program.enter call memory
  ⟨pause, memory, remote⟩

variable {program}

theorem advance_await {s : Lone μ ρ ω π τ} {operation : ω} {point : π}
    (hpause : s.pause = .await operation point) (input : ι) {answer : α} {remote : ρ} {pause : Pause ω π τ}
    {memory : μ} (hperform : program.perform operation input s.remote = (answer, remote))
    (hresume : program.resume point answer s.memory = (pause, memory)) :
    program.advance s input = ⟨pause, memory, remote⟩ := by
  simp only [advance, hpause, hperform, hresume]

theorem alone_finish {s : Lone μ ρ ω π τ} {outcome : τ} (h : s.pause = .finish outcome) (inputs : List ι) :
    program.alone s inputs = s := by
  have hstep : ∀ input, program.advance s input = s := by
    intro input
    simp only [advance, h]
  induction inputs with
  | nil => rfl
  | cons input inputs ih =>
      rw [alone, List.foldl_cons, hstep]
      exact ih

/-- **A call that awaits something and has ended** has gone on. -/
theorem alone_awaits {operation : ω} {point : π} {memory : μ} {remote : ρ} {inputs : List ι}
    {s' : Lone μ ρ ω π τ} {outcome : τ} (h : program.alone ⟨.await operation point, memory, remote⟩ inputs = s')
    (hend : s'.pause = .finish outcome) :
    ∃ input rest, inputs = input :: rest ∧
      program.alone (program.advance ⟨.await operation point, memory, remote⟩ input) rest = s' := by
  cases inputs with
  | nil =>
      rw [← h] at hend
      cases hend
  | cons input rest => exact ⟨input, rest, rfl, h⟩

/-- **What holds of a call that runs alone**, if each of its steps keeps it. -/
theorem alone_keeps {P : Lone μ ρ ω π τ → Prop} (hstep : ∀ s input, P s → P (program.advance s input))
    {s : Lone μ ρ ω π τ} (h : P s) (inputs : List ι) : P (program.alone s inputs) := by
  induction inputs generalizing s with
  | nil => exact h
  | cons input inputs ih => exact ih (hstep s input h)

/-- **The steps of a call meet a condition**, if what holds of the call implies it. -/
theorem along_keeps {P : Lone μ ρ ω π τ → Prop} {Q : Lone μ ρ ω π τ → ι → Prop}
    (hstep : ∀ s input, P s → P (program.advance s input)) (hmeets : ∀ s input, P s → Q s input)
    {s : Lone μ ρ ω π τ} (h : P s) (inputs : List ι) : program.along Q s inputs := by
  induction inputs generalizing s with
  | nil => trivial
  | cons input inputs ih => exact ⟨hmeets s input h, ih (hstep s input h)⟩

/-- **A call that runs alone is a run of the program** in which the other calls make no step. -/
theorem steps_alone (pre post : List (Thread κ ω α π τ)) (call : κ) (inputs : List ι) :
    ∀ s : Lone μ ρ ω π τ,
      (inputs.flatMap fun input => [Turn.perform pre.length input, .resume pre.length]).foldl program.step
          ⟨s.memory, s.remote, pre ++ ⟨call, s.pause.progress⟩ :: post⟩
        = ⟨(program.alone s inputs).memory, (program.alone s inputs).remote,
            pre ++ ⟨call, (program.alone s inputs).pause.progress⟩ :: post⟩ := by
  have hget : ∀ thread : Thread κ ω α π τ, (pre ++ thread :: post)[pre.length]? = some thread :=
    fun thread => getElem?_between pre post thread
  have hset : ∀ thread thread' : Thread κ ω α π τ,
      (pre ++ thread :: post).set pre.length thread' = pre ++ thread' :: post := by
    intro thread thread'
    rw [List.set_append_right _ _ (Nat.le_refl _), Nat.sub_self]
    rfl
  induction inputs with
  | nil => exact fun s => rfl
  | cons input inputs ih =>
      intro s
      rw [List.flatMap_cons, List.foldl_append, List.foldl_cons, List.foldl_cons, List.foldl_nil]
      cases hpause : s.pause with
      | finish outcome =>
          have hnext := ih s
          rw [alone_finish hpause, hpause, Pause.progress_finish] at hnext
          simp only [Pause.progress_finish, step, hget]
          rw [alone_finish hpause, hpause, Pause.progress_finish]
          exact hnext
      | await operation point =>
          have hone : program.alone s (input :: inputs) = program.alone (program.advance s input) inputs := rfl
          rw [hone, ← ih (program.advance s input)]
          simp only [Pause.progress_await, step, hget, hset, advance, hpause]

end Program

/-! ### What calls hold -/

section Gather

variable {β : Type} (f : Progress ω α π τ → List β)

/-- What the calls hold, together. -/
def gather (threads : List (Thread κ ω α π τ)) : List β :=
  threads.flatMap fun thread => f thread.progress

theorem gather_append (pre post : List (Thread κ ω α π τ)) :
    gather f (pre ++ post) = gather f pre ++ gather f post := List.flatMap_append

/-- **One call and the others.** -/
theorem gather_perm (pre post : List (Thread κ ω α π τ)) (call : κ) (progress : Progress ω α π τ) :
    (gather f (pre ++ ⟨call, progress⟩ :: post)).Perm (f progress ++ gather f (pre ++ post)) := by
  have hcons : gather f (⟨call, progress⟩ :: post) = f progress ++ gather f post := List.flatMap_cons
  rw [gather_append, gather_append, hcons, ← List.append_assoc, ← List.append_assoc]
  exact List.perm_append_comm.append_right _

variable {f} in
theorem mem_gather {threads : List (Thread κ ω α π τ)} {b : β} :
    b ∈ gather f threads ↔ ∃ thread ∈ threads, b ∈ f thread.progress := List.mem_flatMap

end Gather
