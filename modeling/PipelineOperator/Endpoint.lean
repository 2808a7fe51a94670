import PipelineOperator.Fault
import PipelineOperator.Metrics.Exposition
import PipelineOperator.Net.RequestTarget

/-!
The two servers of the operator. Probes ask whether the process lives and whether its controllers
run; the metrics are fetched from a server of their own. Each path answers reads only. A server that
ends takes the operator with it.
-/

set_option autoImplicit false
set_option relaxedAutoImplicit false

namespace PipelineOperator

inductive Server where
  | probe
  | metrics
deriving DecidableEq

structure HttpAnswer where
  status : Nat
  contentType : Option String := none
  allow : Option String := none
  body : String := ""
deriving DecidableEq

namespace Server

def plainText : String := "text/plain; charset=utf-8"

def expositionText : String := "text/plain; version=0.0.4; charset=utf-8"

/-- What a server shows at a path. -/
def page? (server : Server) (path : String) (ready : Bool) (metrics : Metrics) :
    Option HttpAnswer :=
  match server, path with
  | .probe, "/healthz" => some { status := 200, contentType := plainText, body := "ok" }
  | .probe, "/readyz" =>
    some (if ready then { status := 200, contentType := plainText, body := "ready" }
      else { status := 503, contentType := plainText, body := "not ready" })
  | .metrics, "/metrics" =>
    some { status := 200, contentType := expositionText, body := Exposition.text metrics }
  | _, _ => none

/-- Answers a request. Only the path matters to any page. -/
def answer (server : Server) (method path : String) (ready : Bool) (metrics : Metrics) :
    HttpAnswer :=
  match server.page? path ready metrics with
  | none => { status := 404 }
  | some page =>
    match method with
    | "GET" => page
    | "HEAD" => { page with body := "" }
    | _ => { status := 405, allow := some "GET,HEAD" }

/-- Why the operator ends when a server of that name has ended, by itself or by a failure. -/
def ending (name : String) : Option Fault → Fault
  | some failure => failure.during (.other (name ++ " server failed"))
  | none => .ofCause (.other (name ++ " server exited unexpectedly"))

end Server

end PipelineOperator
