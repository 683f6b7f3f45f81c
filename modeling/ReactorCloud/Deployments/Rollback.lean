import ReactorCloud.Functions.Rollback
import ReactorCloud.Sites.Rollback

/-!
This module contains when the rollbacks of both services go back.
-/

namespace Reactor.Deployments

open Relational (Table)
open Rust (Uuid Json)

abbrev History (S : Service) :=
  List (S.Op × (Nat → Turn))

def functionsAfter (owners : Table Owner) (history : History Functions.service) : Tables :=
  Functions.service.after history (start owners)

def sitesAfter (owners : Table Owner) (history : History Sites.service) : Tables :=
  Sites.service.after history (start owners)

theorem owned_sitesAfter (owners : Table Owner) (history : History Sites.service)
    : Owned (sitesAfter owners history) :=
  Sites.service.after_keeps (owned_start owners) Sites.owned_perform history

theorem owned_functionsAfter (owners : Table Owner) (history : History Functions.service)
    : Owned (functionsAfter owners history) :=
  Functions.service.after_keeps (owned_start owners) Functions.owned_perform history

/--
After every history a rollback of a function goes back if nothing newer than its current deployment is
ready, and one of a site if it serves its newest deployment and the one before is ready. A rollback to
a deployment of a site asks nothing of it, one to a deployment of a function does.
-/
theorem rollback_goesBack (owners : Table Owner) (functions : History Functions.service)
    (sites : History Sites.service) (orgId : Uuid) (name : String) (id : Uuid)
    : (Functions.RollsBack (functionsAfter owners functions) orgId name
          ↔ Functions.NoneNewer (functionsAfter owners functions) orgId name)
        ∧ Functions.RollsBackTo (functionsAfter owners functions) orgId name
        ∧ (Sites.RollsBack (sitesAfter owners sites) orgId name
          ↔ Sites.NewestServed (sitesAfter owners sites) orgId name)
        ∧ (Sites.RollsBackTo (sitesAfter owners sites) orgId name id
          ↔ Sites.TargetReady (sitesAfter owners sites) orgId name id) := by
  refine ⟨?_, ?_, ?_, ?_⟩
  . exact Functions.rollsBack_iff
  . exact Functions.rollsBackTo _ orgId name
  . exact Sites.rollsBack_iff (owned_sitesAfter owners sites)
  . exact Sites.rollsBackTo_iff

section Examples

def hello : Table Owner :=
  ⟨[⟨10, 7, "hello", none⟩], List.pairwise_singleton _ _⟩

def creates (id : Uuid) : Functions.Op × (Nat → Turn) :=
  (.create (Functions.owner 7) "hello" (.ok ()) true, fun _ => ⟨.served, id, 0⟩)

def promotes (id : String) : Functions.Op × (Nat → Turn) :=
  (.promote (Functions.owner 7) "hello" (.object [("deployment_id", .string id)]), served)

def rollsBack : Functions.Op × (Nat → Turn) :=
  (.rollback (Functions.owner 7) "hello" none, served)

/--
The first rollback after two deployments goes back.
-/
example :
    let t := functionsAfter hello
      [creates 1, creates 2, promotes "00000000-0000-0000-0000-000000000002", rollsBack]
    t.current 10 = some 1 := by
  decide

/--
The second one returns to the newer deployment.
-/
theorem rollback_goesForward
    : ¬ ∀ owners functions orgId name, Functions.RollsBack (functionsAfter owners functions) orgId name
    := by
  intro h
  have hnewer := Functions.noneNewer_of_rollsBack (h hello
    [creates 1, creates 2, promotes "00000000-0000-0000-0000-000000000002", rollsBack] 7 "hello")
  have hfound : (functionsAfter hello
      [creates 1, creates 2, promotes "00000000-0000-0000-0000-000000000002", rollsBack]).getByName 7
        "hello" = some ⟨10, 7, "hello", some 1⟩ := by
    decide
  obtain ⟨c, hc, hcurrent, hle⟩ := hnewer _ hfound ⟨2, 10, 2, .ready, 1⟩ (by
    rw [DeploymentTable.mem_def, Table.mem_def]
    decide) rfl rfl
  have holder : ∀ c ∈ (functionsAfter hello
      [creates 1, creates 2, promotes "00000000-0000-0000-0000-000000000002",
        rollsBack]).deployments.table.rows, some (1 : Uuid) = some c.id → ¬ 1 ≤ c.deployedAt := by
    decide
  exact holder c hc hcurrent hle

end Examples

end Reactor.Deployments
