import EmbeddedMongo.Error

/-!
# The close rendezvous

`src/nonblocking/shutdown.rs`: N retiring workers become one engine close. `Shutdown.retire`
takes the atomic sections of `Shutdown::retire` one at a time: the deposit under the vault's
mutex, the decrement, and, for the party whose decrement reached zero, the draining of the
vault, `Arc::into_inner` with the engine's close, and the answer.
-/

namespace EmbeddedMongo.Nonblocking

/-- A clone of the `Arc<Client>` the workers run on. There is one engine, so a clone carries
nothing but the fact that it is held. -/
inductive Arc where
  | clone
  deriving DecidableEq, Repr

/-- What a close answers. -/
abbrev Answer := Except Error Unit

instance : DecidableEq Answer
  | .ok _, .ok _ => isTrue rfl
  | .error a, .error b => if h : a = b then isTrue (by rw [h]) else isFalse fun e => h (by cases e; rfl)
  | .ok _, .error _ => isFalse nofun
  | .error _, .ok _ => isFalse nofun

/-- The rendezvous. `capacity` is what the vault was allocated for, the count the rendezvous
was built with; `reply` is whether the sender is still there to be taken. -/
structure Shutdown where
  remaining : Nat
  capacity : Nat
  handles : List Arc
  reply : Bool
  deriving DecidableEq, Repr

/-- Where a call of `Shutdown::retire` is; `deposit` still holds the handle it was passed. -/
inductive Retire where
  | deposit
  | countOut
  | drain
  | unwrap (last : Option Arc)
  | answer (result : Answer)
  | done
  deriving DecidableEq

namespace Shutdown

def new (workers : Nat) : Shutdown := ⟨workers, workers, [], true⟩

/-- The next section of a call of `retire`, what is left of the call, and the answer it
sends if it sends one. `strong` is the number of handles on the engine there are anywhere,
which is what `Arc::into_inner` goes by; `close` is what the engine's own close says. -/
def retire (close : Answer) (strong : Nat) (d : Shutdown) : Retire → Shutdown × Retire × Option Answer
  | .deposit => ({ d with handles := d.handles ++ [.clone] }, .countOut, none)
  | .countOut => ({ d with remaining := d.remaining - 1 }, if d.remaining ≠ 1 then .done else .drain, none)
  | .drain => ({ d with handles := [] }, .unwrap d.handles.getLast?, none)
  | .unwrap last => (d, .answer (if last.isSome ∧ strong = 1 then close else .error .closed), none)
  | .answer result => if d.reply then ({ d with reply := false }, .done, some result) else (d, .done, none)
  | .done => (d, .done, none)

end Shutdown

namespace Retire

/-- Handles the call itself holds. -/
def handles : Retire → Nat
  | .deposit | .unwrap (some _) => 1
  | .countOut | .drain | .unwrap none | .answer _ | .done => 0

def depositing : Retire → Nat
  | .deposit => 1
  | .countOut | .drain | .unwrap _ | .answer _ | .done => 0

def counting : Retire → Nat
  | .countOut => 1
  | .deposit | .drain | .unwrap _ | .answer _ | .done => 0

/-- The call's decrement reached zero; the vault is still full. -/
def draining : Retire → Nat
  | .drain => 1
  | .deposit | .countOut | .unwrap _ | .answer _ | .done => 0

/-- The call's decrement reached zero; the vault is empty and the answer not sent. -/
def drained : Retire → Nat
  | .unwrap _ | .answer _ => 1
  | .deposit | .countOut | .drain | .done => 0

def finished : Retire → Nat
  | .done => 1
  | .deposit | .countOut | .drain | .unwrap _ | .answer _ => 0

/-- The call emptied the vault and found no handle in it. -/
def emptyHanded : Retire → Nat
  | .unwrap none => 1
  | .deposit | .countOut | .drain | .unwrap (some _) | .answer _ | .done => 0

/-- The call has what it will answer, and the handle it found is gone. -/
def answering : Retire → Nat
  | .answer _ => 1
  | .deposit | .countOut | .drain | .unwrap _ | .done => 0

/-- The call is about to answer something else than `close`. -/
def mistaken (close : Answer) : Retire → Nat
  | .answer result => if result = close then 0 else 1
  | .deposit | .countOut | .drain | .unwrap _ | .done => 0

theorem emptyHanded_le (stage : Retire) : stage.emptyHanded ≤ stage.drained := by
  cases stage with
  | unwrap last => cases last <;> simp [emptyHanded, drained]
  | _ => simp [emptyHanded]

theorem answering_le (stage : Retire) : stage.answering ≤ stage.drained := by
  cases stage <;> simp [answering, drained]

/-- A call holds a handle before its deposit, and while it has one to unwrap. -/
theorem handles_add (stage : Retire) :
    stage.handles + (stage.emptyHanded + stage.answering) = stage.depositing + stage.drained := by
  cases stage with
  | unwrap last => cases last <;> rfl
  | _ => rfl

end Retire

end EmbeddedMongo.Nonblocking
