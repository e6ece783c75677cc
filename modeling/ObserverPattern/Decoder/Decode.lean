import ObserverPattern.Decoder.Pass
import ObserverPattern.Structure.HandleBody
import ObserverPattern.Walk.Tally

/-!
# Decoding

A decode has two phases. The first takes the auxiliary dispatchers of the template one after the
other (`decodeDispatcher`): it resolves the participants, moves the generic code onto them, records
the facts of the generic handle under the concrete one, and strikes the dispatcher from the
template. The second takes the pass of the decoder through the classes that remain.
-/

namespace ObserverPattern

structure Summary where
  auxs : List String
  tally : Tally
  deriving DecidableEq

namespace Decoder

/-- The name under which a trace records the facts of the generic handle of a dispatcher. -/
def genericKey (aux event : String) : String :=
  "handleCode_" ++ aux ++ "_" ++ aux ++ "_" ++ aux ++ "_" ++ event

def findDispatcher (r : Registry) (aux : String) : Except DecodeFault (ClassId × Dispatcher) := do
  let some id := r.classNamed? aux | throw (.unknownAux aux)
  let c ← r.getClass id
  match c.dispatcher with
  | some dispatcher => return (id, dispatcher)
  | none => throw (.contract aux .noDispatcher)

/-- Gives the participants of a dispatcher their code. -/
def transplant (c : Conventions) (r : Registry) (aux : String) (p : Participants) (generic : MethodId) :
    Except DecodeFault Registry := do
  let (r, collection) ← Collection.install c r p.subject p.observer
  let r ← match p.attach with
    | some attach => Collection.defineOperation .add r attach collection p.observer
    | none => pure r
  let r ← match p.detach with
    | some detach => Collection.defineOperation .remove r detach collection p.observer
    | none => pure r
  HandleBody.transplant c r aux p generic

def decodeDispatcher (d : Decoder) (program : Program) (aux : String) :
    Except DecodeFault (Decoder × Program) := do
  let r := program.registry
  let (id, dispatcher) ← findDispatcher r aux
  let event ← r.className dispatcher.event
  let p ← Participants.resolve r d.bindings aux dispatcher (d.events.counts event)
  let r ← transplant d.conventions r aux p dispatcher.handle
  let concrete ← r.signature p.handle
  let (facts, _) := d.facts.move (genericKey aux event) concrete
  if !program.template.classes.contains id then
    throw (.contract aux .notListed)
  let template := { program.template with classes := program.template.classes.erase id }
  return ({ d with facts, resolved := d.resolved.insert aux p }, { template, registry := r })

def decodeDispatchers (d : Decoder) (program : Program) : List String → Except DecodeFault (Decoder × Program)
  | [] => .ok (d, program)
  | aux :: rest => do
    let (d, program) ← d.decodeDispatcher program aux
    decodeDispatchers d program rest

/-- Takes in what the pass needs to know of the program. -/
def prepare (d : Decoder) (r : Registry) : Decoder :=
  { d with hierarchy := .ofRegistry r, auxNames := longestFirst d.resolved.keys }

def decode (d : Decoder) (program : Program) : Except DecodeFault (Decoder × Program × Summary) := do
  program.validate
  let auxs := program.template.auxs
  let (d, program) ← d.decodeDispatchers program auxs
  let d := d.prepare program.registry
  let (registry, tally) ← Walk.walkCounted d.pass d.conventions.maxDepth program.template program.registry
  return (d, { program with registry }, { auxs, tally })

end Decoder

end ObserverPattern
