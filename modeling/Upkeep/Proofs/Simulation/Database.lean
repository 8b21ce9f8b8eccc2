import Upkeep.Proofs.Simulation.Frame

/-!
# The database of the simulated world

The part of the simulated world that partition upkeep works on: the catalog, the sessions
with the failures that their statements run into, and the fixed answers of the application.
Everything that partition upkeep asks for while it has its lease is answered by this part
alone, and changes nothing else that it could ever learn about.

## Main Definitions

* `Database`, `World.database` — that part, of its own and of a world.
* `Request.isDatabase` — requests that are answered by it alone.
* `Database.answer` — its answers.

## Main Statements

* `World.answer_database` — a world answers these requests as its database does.
* `World.database_answer` — statements alone change the database.
-/

namespace Upkeep

/-- Whether the database alone answers the request; reports have no answer. -/
def Service.Request.isDatabase : Service.Request → Bool
  | .execute _ _ | .listPartitions _ | .readDefault _ _ | .isFull _ | .isRetired _
  | .plannedMissing | .plannedExtra | .plannedAdded | .count _ _ _ | .log _ => true
  | _ => false

namespace Simulation

/-- What partition upkeep works on. -/
structure Database where
  catalog : Catalog
  hidesCatalog : Bool
  sessions : List (Session × SessionState)
  isFull : Int64 → Bool
  isRetired : Int64 → Bool
  plan : Plan

/-- The database of a world. -/
def World.database (world : World) : Database where
  catalog := world.catalog
  hidesCatalog := world.hidesCatalog
  sessions := world.sessions
  isFull := world.isFull
  isRetired := world.isRetired
  plan := world.plan

namespace Database

/-- A world with nothing but the database. -/
def toWorld (database : Database) : World where
  catalog := database.catalog
  hidesCatalog := database.hidesCatalog
  sessions := database.sessions
  isFull := database.isFull
  isRetired := database.isRetired
  plan := database.plan

/-- The answer to a request, and the database after it. -/
def answer (r : Service.Request) (database : Database) : Service.Answer r × Database :=
  ((database.toWorld.answer r).1, (database.toWorld.answer r).2.database)

end Database

namespace World

/-- Statements are executed by the database. -/
private theorem execute_database (world : World) (session : Session) (sql : String) :
    (world.execute session sql).1 = (world.database.toWorld.execute session sql).1 ∧
      (world.execute session sql).2.database =
        (world.database.toWorld.execute session sql).2.database := by
  have hsession : world.database.toWorld.session session = world.session session := rfl
  simp only [execute, hsession]
  split
  · exact ⟨rfl, rfl⟩
  · refine ⟨rfl, ?_⟩
    split <;> rfl

/-- **A world answers as its database does**, and the database after that is its database. -/
theorem answer_database (world : World) {r : Service.Request} (hr : r.isDatabase = true) :
    (world.answer r).1 = (world.database.answer r).1 ∧
      (world.answer r).2.database = (world.database.answer r).2 := by
  cases r with
  | execute session sql => exact world.execute_database session sql
  | obtainLease => cases hr
  | _ => first | exact ⟨rfl, rfl⟩ | cases hr

/-- **Statements alone change the database.** -/
theorem database_answer (world : World) {r : Service.Request}
    (hr : ∀ session sql, r ≠ .execute session sql) :
    (world.answer r).2.database = world.database := by
  have hframe := frame_answer r world
  have hplan : (world.answer r).2.plan = world.plan := by
    cases r with
    | execute session sql => exact absurd rfl (hr session sql)
    | obtainLease => simp only [answer, obtainLease]; split <;> rfl
    | releaseLease => simp only [answer, releaseLease]; split <;> rfl
    | createAction =>
        simp only [answer, createAction]
        split
        · rfl
        · split <;> rfl
    | updateAction => simp only [answer, updateAction]; split <;> rfl
    | endRebuild => simp only [answer, endRebuild]; split <;> rfl
    | _ => rfl
  obtain ⟨hsessions, hcatalog⟩ := hframe.database hr
  simp only [database, hcatalog, hframe.hidesCatalog, hsessions, hframe.isFull, hframe.isRetired,
    hplan]

end World

end Simulation

end Upkeep
