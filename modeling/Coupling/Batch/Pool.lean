import Coupling.Batch.Run

/-!
# Pools of workers

Threads that take the files of a batch in any order. A thread makes its worker with its first file
and keeps it for the later ones; what comes of a file is sent to the one who collects the outcomes,
and may arrive after what was sent later. Which thread takes which file when is left open: a
schedule is a list of moves.
-/

namespace Coupling

/-- A thread: its worker, if it has made one, and the file that it is busy with. -/
structure Slot where
  worker : Option Worker := none
  file : Option Path := none

inductive Move where
  /-- An idle thread takes a waiting file. -/
  | take (thread file : Nat)
  /-- A thread is done with its file and sends the outcome. -/
  | finish (thread : Nat)
  /-- An outcome that was sent arrives. -/
  | deliver (outcome : Nat)
deriving DecidableEq, Repr

/-- A batch under way on several threads. -/
structure Pool where
  /-- Files that no thread has taken. -/
  waiting : List Path
  slots : List Slot
  /-- Outcomes that have not arrived. -/
  sent : List Outcome
  /-- Outcomes in the order of their arrival. -/
  outcomes : List Outcome
  stopRequested : Bool
  disk : Disk

namespace Pool

/-- A batch before its first file. There is always a thread. -/
def start (b : Batch) (d : Disk) (files : List Path) (threads : Nat) : Pool where
  waiting := files
  slots := List.replicate (max threads 1) {}
  sent := []
  outcomes := []
  stopRequested := b.stopRequested
  disk := d

/-- The worker of a thread, made now if it has none. -/
def workerOf (b : Batch) (d : Disk) : Option Worker → Worker × Disk
  | some worker => (worker, d)
  | none => b.worker d

/-- The pool after a move, if the move is possible. A file that is taken after a request to stop is
passed over. -/
def step (b : Batch) (total : Nat) (p : Pool) : Move → Option Pool
  | .take thread file =>
    match p.slots[thread]?, p.waiting[file]? with
    | some ⟨worker, none⟩, some path =>
      some { p with
        waiting := p.waiting.eraseIdx file
        slots := if p.stopRequested then p.slots else p.slots.set thread ⟨worker, some path⟩ }
    | _, _ => none
  | .finish thread =>
    match p.slots[thread]? with
    | some ⟨worker, some path⟩ =>
      let (worker, disk) := workerOf b p.disk worker
      let (outcome, worker, disk) := worker.analyze disk path
      some { p with
        slots := p.slots.set thread ⟨some worker, none⟩
        sent := p.sent ++ [outcome]
        disk := disk }
    | _ => none
  | .deliver outcome =>
    match p.sent[outcome]? with
    | some arrived =>
      let outcomes := p.outcomes ++ [arrived]
      let stop := b.watcher ⟨outcomes.length, total, arrived.path⟩
      some { p with
        sent := p.sent.eraseIdx outcome
        outcomes := outcomes
        stopRequested := p.stopRequested || stop }
    | none => none

/-- The pool after a schedule, if all its moves are possible. -/
def run (b : Batch) (total : Nat) (p : Pool) : List Move → Option Pool
  | [] => some p
  | move :: moves =>
    match p.step b total move with
    | some q => q.run b total moves
    | none => none

/-- No thread has anything to do and all outcomes have arrived. -/
def Ended (p : Pool) : Prop :=
  p.waiting = [] ∧ (∀ slot ∈ p.slots, slot.file = none) ∧ p.sent = []

def report (b : Batch) (total : Nat) (p : Pool) : Report :=
  ⟨total, p.outcomes, p.stopRequested, b.settings.parallel.workers?, true⟩

end Pool

end Coupling
