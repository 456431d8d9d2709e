import TrafficStore.Session

namespace TrafficStore

structure Answered where
  catalog : Catalog
  call : Call
  answer : SessionAnswer
  deriving DecidableEq, Repr

structure Opening where
  settings : Settings
  panels : List Panel := settings.enabled
  calls : List Call := []
  deriving DecidableEq, Repr

namespace Session

variable {ε : Type} [Engine ε]

def answered (s : Session ε) (calls : List Call) : List Answered × Session ε :=
  let r := s.run (calls.map .call)
  (List.zipWith (Answered.mk s.catalog) calls r.1, r.2)

end Session

namespace Opening

def volatile (o : Opening) : Except StorageError (Session Volatile) :=
  Session.start (Environment.volatile o.settings) (some o.panels)

variable {δ : Type} [Database δ]

def start (o : Opening) (d : δ) : Except StorageError (Session (DatabaseEngine δ)) :=
  Session.start (Environment.opened o.settings (.ofDatabase o.settings d)) (some o.panels)

def spend (o : Opening) (d : δ) : Except StorageError (List Answered) × δ :=
  match (Catalog.init o.panels).run (Environment.opened o.settings (.ofDatabase o.settings d)) with
  | (.ok c, env) =>
      let r := Session.answered { environment := env, catalog := c } o.calls
      (.ok r.1, Database.reopen r.2.environment.engine.database)
  | (.error x, env) => (.error x, Database.reopen env.engine.database)

end Opening

def history {δ : Type} [Database δ] (d : δ) :
    List Opening → List (Except StorageError (List Answered)) × δ
  | [] => ([], d)
  | o :: os =>
      let (now, d) := o.spend d
      let (later, d) := history d os
      (now :: later, d)

def life {δ : Type} [Database δ] (d : δ) : List Opening → List Answered × δ
  | [] => ([], d)
  | o :: os =>
      match o.start d with
      | .ok s =>
          let (now, s) := s.answered o.calls
          let (later, d) := life (Database.reopen s.environment.engine.database) os
          (now ++ later, d)
      | .error _ => ([], d)

end TrafficStore
