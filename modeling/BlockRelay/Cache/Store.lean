import BlockRelay.Failure
import BlockRelay.Json.Fields

/-!
# Expiring stores

A store holds bytes under keys for a time. The cache never sees more of it than three calls
(`StoreCall`) and their answers. What the cache does is a *program* over these calls, and a
*service* says how a store behaves: how long it takes to answer a call, and what the answer and
the store afterwards are. `StoreProgram.run` puts the two together on a clock, and
`StoreProgram.runWithin` gives up at a deadline.

Main statements: a program without calls takes no time (`run_done`), and `runWithin` differs
from `run` only by giving up (`runWithin_done`).
-/

namespace BlockRelay

/-- What can be asked of a store. -/
inductive StoreCall where
  /-- Put a value under a key, for a time from now on. -/
  | set (key : String) (value : Bytes) (ttl : Span)
  /-- Read the value under a key. -/
  | get (key : String)
  | clear
deriving DecidableEq

/-- What a store answers: the value found by a read, if any; nothing for the other calls. -/
abbrev StoreAnswer := Except StoreError (Option Bytes)

/-- A computation that may call a store. -/
inductive StoreProgram (α : Type) where
  | done (a : α)
  /-- A call, and how to go on with its answer. -/
  | call (c : StoreCall) (next : StoreAnswer → StoreProgram α)

namespace StoreProgram

variable {α β : Type}

/-- Goes on with the result of a program. -/
def bind : StoreProgram α → (α → StoreProgram β) → StoreProgram β
  | .done a, f => f a
  | .call c next, f => .call c fun answer => (next answer).bind f

instance : Monad StoreProgram where
  pure := .done
  bind := bind

/-- A single call. -/
def ask (c : StoreCall) : StoreProgram StoreAnswer := .call c .done

end StoreProgram

/-- How a store of state `σ` behaves. -/
structure StoreService (σ : Type) where
  /-- How long a call waits before the store acts; nothing if it waits forever. -/
  delay : σ → StoreCall → Option Span
  /-- What a call does at a given time; nothing if it ends the process. -/
  act : σ → Span → StoreCall → Option (StoreAnswer × σ)

/-- A clock and a store. -/
structure StoreWorld (σ : Type) where
  now : Span
  store : σ

/-- How a run ends. -/
inductive StoreRun (σ α : Type) where
  | finished (a : α) (w : StoreWorld σ)
  /-- Never: a call is not answered. -/
  | stuck
  /-- The process ends in the middle of a call. -/
  | crashed

namespace StoreProgram

variable {σ α : Type}

/-- **Runs a program** against a store. -/
def run (service : StoreService σ) : StoreProgram α → StoreWorld σ → StoreRun σ α
  | .done a, w => .finished a w
  | .call c next, w =>
    match service.delay w.store c with
    | none => .stuck
    | some wait =>
      let now := w.now + wait
      match service.act w.store now c with
      | none => .crashed
      | some (answer, store) => (next answer).run service { now, store }

/-- Runs a program up to a deadline. A call that would wait beyond it is given up at the deadline,
before the store acts; a call that waits exactly that long is answered. -/
def runUntil (service : StoreService σ) (deadline : Span) (late : α) :
    StoreProgram α → StoreWorld σ → StoreRun σ α
  | .done a, w => .finished a w
  | .call c next, w =>
    match service.delay w.store c with
    | none => .finished late { w with now := deadline }
    | some wait =>
      let now := w.now + wait
      if now ≤ deadline then
        match service.act w.store now c with
        | none => .crashed
        | some (answer, store) => (next answer).runUntil service deadline late { now, store }
      else .finished late { w with now := deadline }

/-- **Runs a program with a time limit** that counts from its start. -/
def runWithin (service : StoreService σ) (limit : Span)
    (p : StoreProgram (Except CacheError α)) (w : StoreWorld σ) :
    StoreRun σ (Except CacheError α) :=
  p.runUntil service (w.now + limit) (.error (.store (.timeout limit))) w

@[simp] theorem run_done (service : StoreService σ) (a : α) (w : StoreWorld σ) :
    (done a).run service w = .finished a w := rfl

@[simp] theorem runWithin_done (service : StoreService σ) (limit : Span)
    (a : Except CacheError α) (w : StoreWorld σ) :
    (done a).runWithin service limit w = .finished a w := rfl

end StoreProgram

end BlockRelay
