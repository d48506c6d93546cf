/-
# The machine of a process

The commands of both kinds of user code are carried out with the machines of the level
below, so that every run ends; `Engine.ofDepth` stacks up the levels.
-/
import CallbackBridge.Process.Client
namespace CallbackBridge

variable {F G : Type}

/-- Carries out a command of native code to the process. -/
def ProcessCommand.perform (language : Language F G) (engine : Engine F G) :
    (command : ProcessCommand F) → Act (Process F G) Empty command.Reply
  | tick counter => Act.total (Process.onScratch fun s => s.tick counter)
  | prepare f => Act.total (Process.onScratch (language.prepareFunction f))
  | save slot r => Act.total (Process.onScratch fun s =>
    ((), { s with saved := s.saved.insert slot r }))
  | saved slot => Act.total fun p => (p.rest.scratch.saved.find? slot, p)
  | note entry => Act.total fun p => ((), p.note entry)
  | native step => step.perform language engine

/-- Carries out a command of a callable. -/
def CallableCommand.perform (language : Language F G) (engine : Engine F G) :
    (command : CallableCommand F G) → Act (Process F G) Empty command.Reply
  | make object => Act.total (Process.onStore fun s => s.make object)
  | fetch name => Act.total fun p => (p.rest.store.assigned.find? name, p)
  | values id => Act.total fun p =>
    ((p.rest.store.array? id).map CountedArray.elements, p)
  | slice id start len stride => Act.total (Process.onStore fun s =>
    match s.slice id start len stride with
    | some (derived, s) => (some derived, s)
    | none => (none, s))
  | reshape id shape => Act.total (Process.onStore fun s =>
    match s.reshape id shape with
    | some (derived, s) => (some derived, s)
    | none => (none, s))
  | inspect id => Act.total fun p => (p.rest.store.inspect id, p)
  | keep id => Act.total fun p =>
    ((), p.updateStore fun s => { s with kept := s.kept ++ [id] })
  | dropKept => Act.total fun p => ((), p.updateStore fun s => { s with kept := [] })
  | bind dict key id => Act.total fun p =>
    ((), p.updateStore fun s => s.updateDict dict fun entries => entries.insert key id)
  | unbind dict key => Act.total fun p =>
    ((), p.updateStore fun s => s.updateDict dict fun entries => entries.erase key)
  | note entry => Act.total fun p => ((), p.note entry)
  | step operation => operation.perform language engine

namespace Engine

/-- One more level on top of machines for both kinds of user code. -/
def level (language : Language F G) (below : Engine F G) : Engine F G where
  native := Runner.level language.native (ProcessCommand.perform language below) below.native
  callable code args := (language.callable code args).execute fun command =>
    Act.widen (command.perform language below)

/-- Machines with a number of levels. -/
def ofDepth (language : Language F G) : Nat → Engine F G
  | 0 => exhausted
  | depth + 1 => level language (ofDepth language depth)

end Engine

end CallbackBridge
