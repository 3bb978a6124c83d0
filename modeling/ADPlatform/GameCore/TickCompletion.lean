import ADPlatform.GameCore.ServerRules
import ADPlatform.GameCore.Tables

/-! # Whether a tick is completed when `advanceTick` returns

The table `game_ticks` under the server. Every call is made with a context, and a call with a
context that is done, or one that the database fails, has no effect; every path of `advanceTick`
reaches a `CompleteTick`, but the call is made with the context of the tick. -/

namespace ADPlatform.GameCore
open Concurrent ServerProc Server

/-- What the database decides about a call: whether it fails, and what a call that does not touch
`game_ticks` answers. -/
structure DatabaseInput where
  fault : Option StoreError := none
  answer : (op : StoreOp) → Except StoreError op.Answer := fun _ => .error .noRows

/-- A call on the tables, as far as `game_ticks` goes. -/
def tickSem : StoreSem TickTable DatabaseInput := fun input err s op =>
  match err, input.fault with
  | some e, _ => (s, .error (.failure e.text))
  | none, some e => (s, .error e)
  | none, none =>
    match op with
    | .startNextTick now => s.startNextTick now
    | .completeTick tick => s.completeTick tick
    | .reapRunningTicks now => let (s', n) := s.reapRunningTicks now; (s', .ok n)
    | op => (s, input.answer op)

namespace TickTable
variable {s t : TickTable}

/-- No tick with the id is running, and none will be started. -/
structure Closed (id : Int) (s : TickTable) : Prop where
  le : id ≤ s.maxID
  status : ∀ row ∈ s.ticks, row.id = id → row.status ≠ .running

/-- What a statement keeps: ids only grow, and a closed tick stays closed. -/
structure Keeps (s t : TickTable) : Prop where
  le : s.maxID ≤ t.maxID
  closed : ∀ id, Closed id s → Closed id t

theorem Keeps.refl (s : TickTable) : Keeps s s := ⟨le_rfl, fun _ h => h⟩

/-- The row that `StartNextTick` inserts. -/
theorem startNextTick_keeps (now : Time) : Keeps s (s.startNextTick now).1 ∧
    ∀ tick, (s.startNextTick now).2 = .ok tick → tick.id ≤ (s.startNextTick now).1.maxID := by
  unfold startNextTick
  split
  · exact ⟨.refl s, nofun⟩
  generalize htick : ({ id := s.maxID + 1, status := .running, startedAt := now.formatRFC3339 } :
    GameTickStatus) = tick
  have hid : tick.id = s.maxID + 1 := by rw [← htick]
  have hle : tick.id ≤ ({ ticks := s.ticks ++ [tick] } : TickTable).maxID :=
    le_maxID (by simp)
  dsimp only
  refine ⟨⟨by omega, fun id h => ⟨by have := h.le; omega, fun row hrow hrowid => ?_⟩⟩, ?_⟩
  · rcases List.mem_append.mp hrow with hrow | hrow
    · exact h.status row hrow hrowid
    · have := h.le
      rw [List.mem_singleton.mp hrow] at hrowid
      omega
  · rintro _ ⟨⟩
    exact hle

/-- An `UPDATE` that changes no id and starts no tick. -/
theorem update_keeps {f : GameTickStatus → GameTickStatus} (hid : ∀ row, (f row).id = row.id)
    (hstatus : ∀ row, row.status ≠ .running → (f row).status ≠ .running) :
    Keeps s { ticks := s.ticks.map f } := by
  have hmax := maxID_map s hid
  refine ⟨hmax.ge, fun id h => ⟨hmax ▸ h.le, fun row hrow hrowid => ?_⟩⟩
  obtain ⟨old, hold, rfl⟩ := List.mem_map.mp hrow
  exact hstatus old (h.status old hold (hid old ▸ hrowid))

theorem completeTick_keeps {tick : GameTickStatus} (htick : tick.status ≠ .running)
    (hid : tick.id ≤ s.maxID) :
    Keeps s (s.completeTick tick).1 ∧ Closed tick.id (s.completeTick tick).1 := by
  have hkeeps : Keeps s (s.completeTick tick).1 := by
    refine update_keeps (completeRow_id tick) fun row hrow => ?_
    unfold completeRow
    split
    · exact htick
    · exact hrow
  refine ⟨hkeeps, hid.trans hkeeps.le, fun row hrow hrowid => ?_⟩
  obtain ⟨old, -, rfl⟩ := List.mem_map.mp hrow
  rw [completeRow_id] at hrowid
  rw [completeRow, if_pos hrowid]
  exact htick

theorem reapRunningTicks_keeps (now : Time) : Keeps s (s.reapRunningTicks now).1 := by
  refine update_keeps (fun row => ?_) fun row hrow => ?_
  · unfold MemoryGameStore.reapTick
    split <;> rfl
  · rw [MemoryGameStore.reapTick, if_pos hrow]
    exact hrow

theorem tickSem_keeps {input : DatabaseInput} {err : Option CtxError} (op : StoreOp)
    (hop : ∀ tick, op ≠ .completeTick tick) : Keeps s (tickSem input err s op).1 := by
  unfold tickSem
  split
  · exact .refl s
  · exact .refl s
  · cases op with
    | startNextTick now => exact (startNextTick_keeps now).1
    | completeTick tick => exact absurd rfl (hop tick)
    | reapRunningTicks now => exact reapRunningTicks_keeps now
    | _ => exact .refl s

end TickTable

/-- The completion of a tick reaches the database: its context is not done, and the database does
not fail the statement. -/
def CompletionReaches (input : ServerInput DatabaseInput) :
    ServerOp → ServerShared TickTable → Prop
  | .store ctx (.completeTick _), s => s.contextErr ctx = none ∧ input.store.fault = none
  | _, _ => True

/-- A tick that has returned is closed. -/
def completion : Contract (ServerShared TickTable) (ServerInput DatabaseInput) ServerOp
    ServerOp.Res where
  sem := serverSem tickSem
  inv s := ∀ id ∈ s.returnedTicks, s.store.Closed id
  guar s t := s.store.Keeps t.store
  rely s t := s.store.Keeps t.store
  allowed := CompletionReaches
  guar_refl _ := .refl _
  rely_refl _ := .refl _
  rely_trans h h' := ⟨h.le.trans h'.le, fun id hid => h'.closed id (h.closed id hid)⟩
  guar_rely h := h

theorem completion_inv {s t : ServerShared TickTable} (hs : completion.inv s)
    (hret : t.returnedTicks = s.returnedTicks) (h : s.store.Keeps t.store) : completion.inv t :=
  fun id hid => h.closed id (hs id (hret ▸ hid))

theorem completion_store {ctx : Nat} (op : StoreOp) (hop : ∀ tick, op ≠ .completeTick tick) :
    completion.Keeps (.store ctx op) := by
  intro input s t r hs _ hsem
  cases hsem
  have hkeeps : s.store.Keeps (tickSem input.store (s.contextErr ctx) s.store op).1 :=
    TickTable.tickSem_keeps op hop
  exact ⟨completion_inv hs rfl hkeeps, hkeeps⟩

theorem completion_plain (op : ServerOp) (hop : op.Plain) : completion.Keeps op := by
  by_cases hstore : ∃ ctx o, op = .store ctx o
  · obtain ⟨ctx, o, rfl⟩ := hstore
    refine completion_store o ?_
    rintro tick rfl
    exact hop
  · intro input s t r hs _ hsem
    have hsem : serverSem tickSem input op s = some (t, r) := hsem
    obtain ⟨heq, hret⟩ := frame_of_serverSem (fun ctx o h => hstore ⟨ctx, o, h⟩) hsem
    have hret := hret (by rintro id rfl; exact hop)
    have hkeeps : s.store.Keeps t.store := by
      rw [heq]
      exact .refl _
    exact ⟨completion_inv hs hret hkeeps, hkeeps⟩

theorem completion_rules (hmac : MAC) : ServerRules completion hmac
    (fun id s => id ≤ s.store.maxID) (fun id s => s.store.Closed id) (fun _ _ _ => True)
    (fun _ _ => True) where
  plain := completion_plain
  clock s := Contract.Fine.perform (completion_plain _ trivial)
  startNextTick ctx now s := by
    refine .perform fun s' input t r _ hs' hal hsem => ?_
    obtain ⟨hinv, hguar⟩ := completion_store (.startNextTick now) nofun input s' t r hs' hal hsem
    refine ⟨hinv, hguar, fun tick htick => ?_⟩
    cases hsem
    change (tickSem input.store (s'.contextErr ctx) s'.store (.startNextTick now)).2 = _ at htick
    change _ ≤ (tickSem input.store (s'.contextErr ctx) s'.store (.startNextTick now)).1.maxID
    unfold tickSem at htick ⊢
    split at htick
    · cases htick
    · cases htick
    · exact (TickTable.startNextTick_keeps now).2 tick htick
  completeTick ctx tick s hstatus hstarted := by
    refine .perform fun s' input t r hr hs' hal hsem => ?_
    have hrow : s'.store.Keeps (s'.store.completeTick tick).1 ∧
        (s'.store.completeTick tick).1.Closed tick.id :=
      TickTable.completeTick_keeps hstatus (hstarted.trans hr.le)
    obtain ⟨hctx, hfault⟩ := hal
    have heq : tickSem input.store (s'.contextErr ctx) s'.store (.completeTick tick)
        = s'.store.completeTick tick := by
      unfold tickSem
      rw [hctx, hfault]
    cases hsem
    rw [← heq] at hrow
    exact ⟨completion_inv hs' rfl hrow.1, hrow.1, hrow.2⟩
  issueFlag ctx tickID codec target createdAt s _ := .perform (completion_store _ nofun)
  tickReturned tickID s hclosed := by
    refine Contract.Meets.perform fun s' input t r hr hs' _ hsem => ?_
    cases hsem
    refine ⟨fun id hid => ?_, .refl _, trivial⟩
    rcases List.mem_cons.mp hid with rfl | hid
    · exact hr.closed _ hclosed
    · exact hs' id hid
  lookupIssuedFlag ctx flag s :=
    Contract.Meets.weaken (Contract.Fine.perform (completion_store _ nofun))
      fun _ _ _ _ _ _ _ => trivial
  acceptFlagSubmission ctx x f s _ _ _ _ := .perform (completion_store _ nofun)
  started_rely hr h := h.trans hr.le
  closed_rely hr h := hr.closed _ h
  stored_rely _ h := h

/-- When `advanceTick` has returned, its tick is not running and keeps no other tick from
starting: in every run whose completions reach the database. -/
theorem returned_tick_completed (cfg : ServerConfig) (store : TickTable) (codec : FlagCodec)
    (ls : List (Label ServerRequest (ServerInput DatabaseInput)))
    (hrun : completion.RunAllowed (ServerRequest.handler cfg) (.boot { store, codec }) ls) :
    let s := ((Machine.boot { store, codec }).run (serverSem tickSem) (ServerRequest.handler cfg)
      ls).shared
    ∀ id ∈ s.returnedTicks, (∀ row ∈ s.store.ticks, row.id = id → row.status ≠ .running) ∧
      ∀ row, s.store.newest = some row → row.id = id →
        ∀ now, (s.store.startNextTick now).2 ≠ .error .tickInProgress := by
  intro s id hid
  have hstart : completion.inv { store, codec } := nofun
  have hinv := Contract.inv_run ((completion_rules cfg.crypto.hmac).handles rfl) hstart hrun
  have hclosed : s.store.Closed id := hinv id hid
  refine ⟨hclosed.status, fun row hrow hrowid now => ?_⟩
  have hstatus := hclosed.status row (List.mem_of_find?_eq_some hrow) hrowid
  rw [TickTable.startNextTick, hrow, if_neg (by simpa using hstatus)]
  nofun

/-- The answers of a database with a running match and no targets. -/
def noTargets : (op : StoreOp) → Except StoreError op.Answer
  | .matchStatus => .ok { state := .running }
  | .listCheckerTargets => .ok []
  | .recomputeScoreboard => .ok ()
  | _ => .error .noRows

/-- Settings without a checker. -/
def noTargetsConfig : ServerConfig where
  crypto := { hmac := fun _ _ => [], sha256 := fun _ => [] }
  tickTimeout := false

/-- The codec of these settings. -/
def noTargetsCodec : FlagCodec := .new "flag" "secret"

/-- A tick from its request to its return. -/
def wholeTick : List (Label ServerRequest (ServerInput DatabaseInput)) :=
  .arrive .advanceTick :: (List.replicate 10 (.step 0 { store := { answer := noTargets } }) ++
    List.replicate 2 (.step 1 { store := {} }) ++
    List.replicate 7 (.step 0 { store := { answer := noTargets } }))

theorem returned_tick_completed_wholeTick :
    let s := ((Machine.boot { store := {}, codec := noTargetsCodec }).run (serverSem tickSem)
      (ServerRequest.handler noTargetsConfig) wholeTick).shared
    s.returnedTicks = [1] ∧ ∀ row ∈ s.store.ticks, row.id = 1 → row.status ≠ .running := by
  refine ⟨rfl, (returned_tick_completed noTargetsConfig {} noTargetsCodec wholeTick ?_ 1 ?_).1⟩
  · refine ⟨trivial, ?_, ?_, ?_, ?_, ?_, ?_, ?_, ?_, ?_, ?_, ?_, ?_, ?_, ?_, ?_, ?_, ?_, ?_, ?_,
      trivial⟩ <;> rintro op k h - <;> cases h <;> trivial
  · exact List.mem_singleton_self 1

/-- Without the condition a tick is left running: its context ends after it was started, and the
failed tick is completed with the same context. -/
theorem tick_left_running :
    ¬ ∀ (cfg : ServerConfig) (store : TickTable) (codec : FlagCodec)
      (ls : List (Label ServerRequest (ServerInput DatabaseInput))),
      let s := ((Machine.boot { store, codec }).run (serverSem tickSem) (ServerRequest.handler cfg)
        ls).shared
      ∀ id ∈ s.returnedTicks, (∀ row ∈ s.store.ticks, row.id = id → row.status ≠ .running) ∧
        ∀ row, s.store.newest = some row → row.id = id →
          ∀ now, (s.store.startNextTick now).2 ≠ .error .tickInProgress := by
  intro h
  have hid := h noTargetsConfig {} noTargetsCodec
    (.arrive .advanceTick :: .arrive (.endContext 0 .canceled) ::
      (List.replicate 5 (.step 0 { store := { answer := noTargets } }) ++
        [.step 1 { store := {} }] ++ List.replicate 4 (.step 0 { store := {} }))) 1
    (List.mem_singleton_self 1)
  exact hid.1 { id := 1, status := .running, startedAt := some 0 } (List.mem_singleton_self _) rfl
    rfl

end ADPlatform.GameCore
