import TestExplorer.Run.Report
import TestExplorer.Server.Message

set_option autoImplicit false

namespace TestExplorer.Server

def Notification.testStarted (item : WorkItem) : Notification :=
  { method := "prologtest/testStarted", params := .object [("id", .string item.id.text)] }

def Notification.testFinished (item : WorkItem) (outcome : Outcome) : Notification :=
  let result : List (String × Json) := match outcome with
    | .passed => [("outcome", .string "passed")]
    | .failed message => [("outcome", .string "failed"), ("message", .string message)]
  { method := "prologtest/testFinished", params := .object (("id", .string item.id.text) :: result) }

def progressOf? : RunEvent → Option Notification
  | .runStart _ => none
  | .started item => some (.testStarted item)
  | .finished item outcome => some (.testFinished item outcome)
  | .complete _ => none

structure Relay where
  waiting : List Notification := []
  sent : List Notification := []

namespace Relay

def push (r : Relay) (event : RunEvent) : Relay :=
  { r with waiting := r.waiting ++ (progressOf? event).toList }

def forward (n : Nat) (r : Relay) : Relay :=
  { waiting := r.waiting.drop n, sent := r.sent ++ r.waiting.take n }

def drain (r : Relay) : Relay :=
  r.forward r.waiting.length

end Relay

end TestExplorer.Server
