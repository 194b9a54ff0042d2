import InnerLoop.Api.Feed
import InnerLoop.Api.Session

/-!
# A server with fixed answers

A server that gives the answers that it was told to give, one a request, and keeps what it was
asked. It is there to try calls, sessions and feeds out.

- `Server`, `Server.serve`: the server.
- `Server.perform`, `Server.execute`, `Server.follow`: a call, a command and a feed on it.
-/

namespace InnerLoop.Api

/-- What a server was sent. -/
inductive Traffic where
  | request (request : HttpRequest)
  /-- The input of a command. -/
  | input (text : String)
  deriving Inhabited

/-- A server with fixed answers. -/
structure Server where
  /-- The answers that it still has. -/
  answers : List Answer := []
  /-- What it says when there is none left. -/
  exhausted : ApiStatus :=
    { status := "Failure", message := "no more answers", reason := "Exhausted", code := 500 }
  /-- What it was sent. -/
  log : List Traffic := []
  deriving Inhabited

namespace Server

/-- The server after it was sent something. -/
def keep (s : Server) (t : Traffic) : Server := { s with log := s.log ++ [t] }

/-- The answer to a request. -/
def serve (s : Server) (r : HttpRequest) : Answer × Server :=
  (s.answers.headD (.refusing s.exhausted), { s.keep (.request r) with answers := s.answers.tail })

/-- Makes a call. -/
def perform {α : Type} (s : Server) (c : Call α) : Except ClusterFault α × Server :=
  match c.request with
  | .error fault => (.error (c.explain fault), s)
  | .ok r =>
    let (a, s) := s.serve r
    ((c.read a).mapError c.explain, s)

/-- Runs a command in a pod. -/
def execute (s : Server) (ns : String) (e : Execution) : Except ClusterFault ExecOutput × Server :=
  match e.request ns with
  | .error fault => (.error fault.toCluster, s)
  | .ok r =>
    let (a, s) := s.serve r
    (e.outcome a, (e.inputRead a).elim s fun input => s.keep (.input input))

/-! ## Following -/

variable {κ : Type} [Resource κ]

set_option linter.unusedVariables false in
/-- What a feed tells from a stage on. The feed is followed until it tells of an event after its
first trouble; `troubled` says whether that was told already. -/
def follow (f : Feed κ) (s : Server) (troubled : Bool) (stage : Stage κ) :
    List (FeedItem κ) × Server :=
  match h : f.move stage with
  | .pass next => follow f s troubled next
  | .tell item next =>
    if ht : troubled ∧ item.event?.isSome then ([item], s)
    else
      let (items, s) := follow f s (troubled || item.isError) next
      (item :: items, s)
  | .askList r =>
    let asked := s.keep (.request r)
    match hs : s.answers with
    | [] =>
      let item : FeedItem κ := .error (.listFailed (.refused s.exhausted))
      if ht : troubled then ([item], asked)
      else
        let (items, s) := follow f asked true .start
        (item :: items, s)
    | a :: answers =>
      let asked := { asked with answers }
      match f.afterList a with
      | .ok next => follow f asked troubled next
      | .error fault =>
        if ht : troubled then ([.error fault], asked)
        else
          let (items, s) := follow f asked true .start
          (.error fault :: items, s)
  | .askWatch r version =>
    let asked := s.keep (.request r)
    match hs : s.answers with
    | [] =>
      let item : FeedItem κ := .error (.watchFailed (.refused s.exhausted))
      if ht : troubled then ([item], asked)
      else
        let (items, s) := follow f asked true (.watching version [])
        (item :: items, s)
    | a :: answers => follow f { asked with answers } troubled (f.afterWatch version a)
termination_by (if troubled then 0 else 1, s.answers.length, stage.rank)
decreasing_by
  · exact .right _ (.right _ (Feed.rank_of_pass h))
  · cases he : item.isError
    · simp only [Bool.or_false]
      exact Prod.Lex.right _ (Prod.Lex.right _ (Feed.rank_of_tell h he))
    · have hb : troubled = false := by
        cases troubled
        · rfl
        · exact absurd ⟨rfl, FeedItem.event?_isSome_of_isError he⟩ ht
      exact .left _ _ (by simp [hb])
  · exact .left _ _ (by simp [ht])
  · exact .right _ (.left _ _ (by simp [hs]))
  · exact .left _ _ (by simp [ht])
  · exact .left _ _ (by simp [ht])
  · exact .right _ (.left _ _ (by simp [hs]))

/-- The events of a feed from its start on, and all that is asked until they are known to have
ended. -/
def watch (s : Server) (f : Feed κ) : List (WatchEvent κ) × Server :=
  let (items, s) := s.follow f false .start
  (relay items, s)

end Server

end InnerLoop.Api
