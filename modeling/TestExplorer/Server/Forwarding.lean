import TestExplorer.Controller.Interleaving
import TestExplorer.Server.Progress

/-!
Requests with their forwarders. A run reports into a channel of its own. A forwarder takes what it
finds there, one notification after the other, and sends it to the editor. When the run is over the
channel is closed, the forwarder leaves once it has emptied it, and only then is the request
answered. Requests and forwarders take their turns in any order, and the editor gets everything in
the order in which it was sent.
-/

set_option autoImplicit false

namespace TestExplorer

open Server (Notification progressOf?)

inductive Forwarder where
  | idle
  | carrying (n : Notification)
  | gone

inductive Delivery where
  | running
  | closed
  | answered
  deriving DecidableEq

structure Channel where
  waiting : List Notification := []
  delivery : Delivery := .running
  forwarder : Forwarder

namespace Forwarder

def load : Forwarder → List Notification
  | carrying n => [n]
  | _ => []

end Forwarder

namespace Channel

-- A request that reports nothing has no forwarder to wait for.
def of (task : Task) : Channel :=
  { forwarder := if task.flag?.isSome then .idle else .gone }

def push (ch : Channel) (act : Act) : Channel :=
  { ch with waiting := ch.waiting ++ (act.event?.bind progressOf?).toList }

def receive (ch : Channel) : Channel :=
  match ch.forwarder, ch.waiting with
  | .idle, n :: rest => { ch with waiting := rest, forwarder := .carrying n }
  | .idle, [] => if ch.delivery = .running then ch else { ch with forwarder := .gone }
  | _, _ => ch

def pending (ch : Channel) : List Notification :=
  ch.forwarder.load ++ ch.waiting

end Channel

inductive Sent where
  | progress (n : Notification)
  | answer (reply : Task.Reply)

structure Traffic (ι : Type) where
  scene : Scene ι
  channel : ι → Channel
  sent : List (ι × Sent) := []

inductive Turn (ι : Type) where
  | request (move : Move ι)
  | close (i : ι)
  | receive (i : ι)
  | send (i : ι)
  | answer (i : ι)

namespace Traffic

variable {ι : Type}

def start (c : Controller) (tasks : ι → Task) (engine : Engine) : Traffic ι :=
  { scene := .start c tasks engine, channel := fun i => .of (tasks i) }

variable [DecidableEq ι]

def sentOf (i : ι) (sent : List (ι × Sent)) : List Sent :=
  sent.filterMap fun (j, sent) => if j = i then some sent else none

def onChannel (t : Traffic ι) (i : ι) (change : Channel → Channel) : Traffic ι :=
  { t with channel := Function.update t.channel i (change (t.channel i)) }

def sending (t : Traffic ι) (i : ι) (sent : Sent) : Traffic ι :=
  { t with sent := t.sent ++ [(i, sent)] }

def reporting (t : Traffic ι) : Move ι → ι → Channel
  | .turn i answers =>
    match t.scene.next i answers with
    | some (act, _) => Function.update t.channel i ((t.channel i).push act)
    | none => t.channel
  | .raise _ => t.channel

-- A turn whose time has not come changes nothing.
def after (t : Traffic ι) : Turn ι → Traffic ι
  | .request move => { t with scene := t.scene.after move, channel := t.reporting move }
  | .close i =>
    match t.scene.rest i, (t.channel i).delivery with
    | .done _, .running => t.onChannel i ({ · with delivery := .closed })
    | _, _ => t
  | .receive i => t.onChannel i (·.receive)
  | .send i =>
    match (t.channel i).forwarder with
    | .carrying n => (t.onChannel i ({ · with forwarder := .idle })).sending i (.progress n)
    | _ => t
  | .answer i =>
    match t.scene.rest i, (t.channel i).delivery, (t.channel i).forwarder with
    | .done reply, .closed, .gone =>
      (t.onChannel i ({ · with delivery := .answered })).sending i (.answer reply)
    | _, _, _ => t

def play (t : Traffic ι) (turns : List (Turn ι)) : Traffic ι :=
  turns.foldl after t

end Traffic

end TestExplorer
