/-!
# Progress

A long piece of work tells a listener when it begins, how far it has come and when it is done. The
listener may fail to take note of an event, which is of no consequence, and may ask for the work to
be cancelled, which the worker looks at between two items.

## Main definitions

* `Event`: what is told.
* `Sink`: a kind of listener, by what it does with an event.
* `Listener`: a listener's state, together with whether cancellation has been asked for.
* `Tracker`: a listener that knows how much of the current piece of work is done.
-/
namespace CodeAtlas

/-- A long piece of work. -/
inductive Task where
  | population
  | analysis
deriving DecidableEq

/-- The title of a piece of work. -/
def Task.title : Task → String
  | population => "populating fact base"
  | analysis => "class hierarchy analysis"

/-- What a listener is told. -/
inductive Event where
  | begun (task : Task) (total : Nat)
  | worked (units : Nat)
  | done
deriving DecidableEq

/-- What comes back from a listener. -/
structure Reply where
  /-- The event could not be taken note of. -/
  failed : Bool := false
  /-- The work is to be cancelled. -/
  cancels : Bool := false

/-- A kind of listener. -/
structure Sink (σ : Type) where
  receive : σ → Event → σ × Reply

/-- A listener at work, and whether cancellation has been asked for, by it or by anyone else. -/
structure Listener (σ : Type) where
  state : σ
  cancelled : Bool := false

/-- Tell a listener of an event. Whether that fails is not looked at. -/
def Listener.tell {σ : Type} (l : Listener σ) (sink : Sink σ) (event : Event) : Listener σ :=
  let (state, reply) := sink.receive l.state event
  ⟨state, l.cancelled || reply.cancels⟩

/-- A listener that nothing is of interest to. -/
def Sink.silent : Sink Unit := ⟨fun _ _ => ((), {})⟩

/-- The same kind of listener, which never asks for cancellation. -/
def Sink.steadfast {σ : Type} (sink : Sink σ) : Sink σ where
  receive s event := ((sink.receive s event).1, { (sink.receive s event).2 with cancels := false })

/-- How much of a piece of work is done. -/
structure Tracker where
  task : Option Task := none
  total : Nat := 0
  completed : Nat := 0
deriving DecidableEq

/-- Keep track of the current piece of work. -/
def Tracker.sink : Sink Tracker where
  receive t
    | .begun task total => (⟨some task, total, 0⟩, {})
    | .worked units => ({ t with completed := t.completed + units }, {})
    | .done => (t, {})

@[simp] theorem Listener.tell_state {σ : Type} (l : Listener σ) (sink : Sink σ) (event : Event) :
    (l.tell sink event).state = (sink.receive l.state event).1 := rfl

end CodeAtlas
