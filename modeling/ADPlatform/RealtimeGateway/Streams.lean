import ADPlatform.RealtimeGateway.Subscribers

/-! # The streams of the realtime gateway

The handler of a stream subscribes, writes the current snapshot and then whatever it receives. What
it has written, will write and has waiting in its channel is a sequence that its own steps leave
alone (`pending_own`), so that a stream catches up with the gateway exactly if that sequence ends
with the current snapshot. -/

namespace ADPlatform.RealtimeGateway

/-- The gateway and the handlers of its streams, by subscriber: whether the handler has read the
snapshot that it starts with, and what it has written. -/
structure StreamSystem (H : Type) where
  gateway : Gateway H
  started : Nat → Bool
  written : Nat → List Payload

/-- A call of the gateway, or a step of the handler of a stream. -/
inductive StreamStep where
  | call (call : GatewayCall)
  | writeSnapshot (kind : StreamKind) (id : Nat)
  | writeUpdate (id : Nat)
  deriving DecidableEq, Repr

namespace StreamSystem
variable {H : Type}

/-- A gateway without clients. -/
def new (zero : H) : StreamSystem H := ⟨Gateway.new zero, fun _ => false, fun _ => []⟩

/-- An empty snapshot is none, and is not written. -/
def shown (payload : Payload) : List Payload := if payload = [] then [] else [payload]

/-- The handler reads the snapshot that it starts with. -/
def writeSnapshot (kind : StreamKind) (id : Nat) (s : StreamSystem H) : StreamSystem H :=
  if ((s.gateway.subscribers kind).lookup id).isSome && !s.started id then
    { s with
      started := Function.update s.started id true
      written := Function.update s.written id (s.written id ++ shown (s.gateway.snapshot kind)) }
  else s

/-- The handler receives from its channel. -/
def writeUpdate (id : Nat) (s : StreamSystem H) : StreamSystem H :=
  match s.started id, (s.gateway.channels id).receive with
  | true, some (payload, channel) =>
    { s with
      gateway := { s.gateway with channels := Function.update s.gateway.channels id channel }
      written := Function.update s.written id (s.written id ++ [payload]) }
  | _, _ => s

/-- A subscription starts a handler, which has not written anything. -/
def exec [DecidableEq H] (sha256 : Payload → H) (limits : SubscriberLimits) :
    StreamStep → StreamSystem H → StreamSystem H
  | .call (.subscribe kind clientKey), s =>
    { gateway := s.gateway.subscribe limits kind clientKey
      started := Function.update s.started s.gateway.nextSubscriberID false
      written := Function.update s.written s.gateway.nextSubscriberID [] }
  | .call call, s => { s with gateway := call.exec sha256 limits s.gateway }
  | .writeSnapshot kind id, s => s.writeSnapshot kind id
  | .writeUpdate id, s => s.writeUpdate id

/-! ## Catching up -/

/-- The step is one of the client's handler. -/
def OwnStep (kind : StreamKind) (id : Nat) (step : StreamStep) : Prop :=
  step = .writeSnapshot kind id ∨ step = .writeUpdate id

/-- The handler has written all that it can. -/
def Drained (s : StreamSystem H) (id : Nat) : Prop :=
  s.started id = true ∧ (s.gateway.channels id).buffer = []

/-- What was written last is the current snapshot; where nothing was written, there is none. -/
def ShowsCurrent (s : StreamSystem H) (kind : StreamKind) (id : Nat) : Prop :=
  (s.written id).getLastD [] = s.gateway.snapshot kind

/-- If publishing stops here, a subscriber that drains its channel ends at the current snapshot. -/
def CatchesUp [DecidableEq H] (sha256 : Payload → H) (limits : SubscriberLimits) (id : Nat)
    (s : StreamSystem H) : Prop :=
  ∀ kind subscriber, (s.gateway.subscribers kind).lookup id = some subscriber →
    ∀ steps, (∀ step ∈ steps, OwnStep kind id step) →
      Drained (Runs.run (exec sha256 limits) s steps) id →
      ShowsCurrent (Runs.run (exec sha256 limits) s steps) kind id

/-- What has been written, is going to be and waits in the channel. -/
def pending (s : StreamSystem H) (kind : StreamKind) (id : Nat) : List Payload :=
  s.written id ++ (if s.started id then [] else shown (s.gateway.snapshot kind)) ++
    (s.gateway.channels id).buffer

/-- What the client gets last is the stream's snapshot. -/
def EndsCurrent (s : StreamSystem H) (kind : StreamKind) (id : Nat) : Prop :=
  (s.pending kind id).getLastD [] = s.gateway.snapshot kind

variable {s : StreamSystem H} {kind : StreamKind} {id : Nat} {subscriber : RealtimeSubscriber}

theorem pending_writeSnapshot (h : (s.gateway.subscribers kind).lookup id = some subscriber) :
    (s.writeSnapshot kind id).pending kind id = s.pending kind id := by
  unfold writeSnapshot
  rw [h]
  cases hstarted : s.started id with
  | true => rfl
  | false => simp [pending, hstarted]

theorem pending_writeUpdate : (s.writeUpdate id).pending kind id = s.pending kind id := by
  unfold writeUpdate
  split
  · rename_i payload channel hstarted hreceive
    unfold Channel.receive at hreceive
    split at hreceive
    · cases hreceive
    · rename_i buffer hbuffer
      cases hreceive
      simp [pending, hstarted, hbuffer]
  · rfl

@[simp] theorem gateway_writeSnapshot : (s.writeSnapshot kind id).gateway = s.gateway := by
  unfold writeSnapshot
  split <;> rfl

theorem subscribers_writeUpdate :
    (s.writeUpdate id).gateway.subscribers = s.gateway.subscribers := by
  unfold writeUpdate
  split <;> rfl

theorem snapshot_writeUpdate : (s.writeUpdate id).gateway.snapshot = s.gateway.snapshot := by
  unfold writeUpdate
  split <;> rfl

theorem hash_writeUpdate : (s.writeUpdate id).gateway.hash = s.gateway.hash := by
  unfold writeUpdate
  split <;> rfl

theorem pending_drained (h : Drained s id) : s.pending kind id = s.written id := by
  rw [pending, h.1, h.2, if_pos rfl, List.append_nil, List.append_nil]

theorem writeUpdate_cons {payload : Payload} {buffer : List Payload}
    (hstarted : s.started id = true)
    (hbuffer : (s.gateway.channels id).buffer = payload :: buffer) :
    (s.writeUpdate id).started id = true ∧ ((s.writeUpdate id).gateway.channels id).buffer =
      buffer := by
  have hreceive : (s.gateway.channels id).receive =
      some (payload, { s.gateway.channels id with buffer }) := by
    rw [Channel.receive, hbuffer]
  rw [writeUpdate, hstarted, hreceive]
  exact ⟨hstarted, by dsimp only; rw [Function.update_self]⟩

section runs
variable [DecidableEq H] {sha256 : Payload → H} {limits : SubscriberLimits}

/-- The handler's own steps change neither what is pending nor the snapshot. -/
theorem pending_own (sha256 : Payload → H) (limits : SubscriberLimits) {step : StreamStep}
    (hstep : OwnStep kind id step)
    (h : (s.gateway.subscribers kind).lookup id = some subscriber) :
    (exec sha256 limits step s).pending kind id = s.pending kind id ∧
      (exec sha256 limits step s).gateway.snapshot = s.gateway.snapshot ∧
      (exec sha256 limits step s).gateway.subscribers = s.gateway.subscribers := by
  rcases hstep with rfl | rfl
  · exact ⟨pending_writeSnapshot h, by
      rw [exec, gateway_writeSnapshot], by rw [exec, gateway_writeSnapshot]⟩
  · exact ⟨pending_writeUpdate, snapshot_writeUpdate, subscribers_writeUpdate⟩

theorem pending_run (sha256 : Payload → H) (limits : SubscriberLimits) {steps : List StreamStep}
    (hsteps : ∀ step ∈ steps, OwnStep kind id step)
    (h : (s.gateway.subscribers kind).lookup id = some subscriber) :
    (Runs.run (exec sha256 limits) s steps).pending kind id = s.pending kind id ∧
      (Runs.run (exec sha256 limits) s steps).gateway.snapshot = s.gateway.snapshot := by
  induction steps generalizing s with
  | nil => exact ⟨rfl, rfl⟩
  | cons step steps ih =>
    obtain ⟨hpending, hsnapshot, hsubscribers⟩ :=
      pending_own sha256 limits (hsteps step List.mem_cons_self) h
    obtain ⟨hpending', hsnapshot'⟩ :=
      ih (fun step hstep => hsteps step (List.mem_cons_of_mem _ hstep))
      (hsubscribers ▸ h)
    exact ⟨hpending'.trans hpending, hsnapshot'.trans hsnapshot⟩

/-- A handler that goes on drains its channel. -/
theorem exists_drained (sha256 : Payload → H) (limits : SubscriberLimits)
    (h : (s.gateway.subscribers kind).lookup id = some subscriber) : ∃ steps,
      (∀ step ∈ steps, OwnStep kind id step) ∧
        Drained (Runs.run (exec sha256 limits) s steps) id := by
  have hupdates : ∀ buffer (s : StreamSystem H), s.started id = true →
      (s.gateway.channels id).buffer = buffer → ∃ steps, (∀ step ∈ steps, OwnStep kind id step) ∧
        Drained (Runs.run (exec sha256 limits) s steps) id := by
    intro buffer
    induction buffer with
    | nil => exact fun s hstarted hbuffer => ⟨[], nofun, hstarted, hbuffer⟩
    | cons payload buffer ih =>
      intro s hstarted hbuffer
      obtain ⟨hstarted', hbuffer'⟩ := writeUpdate_cons hstarted hbuffer
      obtain ⟨steps, hsteps, hdrained⟩ := ih _ hstarted' hbuffer'
      exact ⟨.writeUpdate id :: steps, List.forall_mem_cons.mpr ⟨.inr rfl, hsteps⟩, hdrained⟩
  have hstarted : (s.writeSnapshot kind id).started id = true := by
    unfold writeSnapshot
    rw [h]
    cases hs : s.started id with
    | true => exact hs
    | false => exact Function.update_self ..
  obtain ⟨steps, hsteps, hdrained⟩ := hupdates _ _ hstarted rfl
  exact ⟨.writeSnapshot kind id :: steps, List.forall_mem_cons.mpr ⟨.inl rfl, hsteps⟩, hdrained⟩

/-- A stream catches up exactly if what is pending ends with the current snapshot. -/
theorem catchesUp_iff : CatchesUp sha256 limits id s ↔
    ∀ kind subscriber, (s.gateway.subscribers kind).lookup id = some subscriber →
      s.EndsCurrent kind id := by
  constructor
  · intro h kind subscriber hlookup
    obtain ⟨steps, hsteps, hdrained⟩ := exists_drained sha256 limits hlookup
    have hshows := h kind subscriber hlookup steps hsteps hdrained
    obtain ⟨hpending, hsnapshot⟩ := pending_run sha256 limits hsteps hlookup
    rw [EndsCurrent, ← hpending, ← hsnapshot, pending_drained hdrained]
    exact hshows
  · intro h kind subscriber hlookup steps hsteps hdrained
    obtain ⟨hpending, hsnapshot⟩ := pending_run sha256 limits hsteps hlookup
    rw [ShowsCurrent, ← pending_drained hdrained, hpending, hsnapshot]
    exact h kind subscriber hlookup

end runs

/-! ## Steps -/

/-- A stream has updates only after a publication. -/
structure Published (sha256 : Payload → H) (s : StreamSystem H) : Prop where
  numbered : s.gateway.Numbered
  hash : ∀ {kind id subscriber}, (s.gateway.subscribers kind).lookup id = some subscriber →
    (s.gateway.channels id).buffer ≠ [] → s.gateway.hash kind = sha256 (s.gateway.snapshot kind)

/-- The stream of subscriber `id`, if there is one, ends with the current snapshot. -/
def Ends (id : Nat) (s : StreamSystem H) : Prop :=
  ∀ kind subscriber, (s.gateway.subscribers kind).lookup id = some subscriber →
    s.EndsCurrent kind id

variable {t : StreamSystem H} {sha256 : Payload → H} {limits : SubscriberLimits}

theorem EndsCurrent.congr (h : s.EndsCurrent kind id) (hwritten : t.written id = s.written id)
    (hstarted : t.started id = s.started id)
    (hbuffer : (t.gateway.channels id).buffer = (s.gateway.channels id).buffer)
    (hsnapshot : t.gateway.snapshot kind = s.gateway.snapshot kind) : t.EndsCurrent kind id := by
  rw [EndsCurrent, pending, hwritten, hstarted, hbuffer, hsnapshot]
  exact h

theorem endsCurrent_of_new (hwritten : s.written id = []) (hstarted : s.started id = false)
    (hbuffer : (s.gateway.channels id).buffer = []) : s.EndsCurrent kind id := by
  rw [EndsCurrent, pending, hwritten, hstarted, hbuffer]
  by_cases hempty : s.gateway.snapshot kind = []
  · simp [shown, hempty]
  · simp [shown, hempty]

theorem getLastD_pending (h : (s.gateway.channels id).buffer ≠ []) :
    (s.pending kind id).getLastD [] = (s.gateway.channels id).buffer.getLastD [] := by
  rw [pending, List.getLastD_eq_getLast?, List.getLastD_eq_getLast?,
    List.getLast?_append_of_ne_nil _ h]

/-- A new subscriber is current. -/
theorem ends_subscribe [DecidableEq H] (hs : s.Published sha256) (h : s.Ends id) (kind : StreamKind)
    (clientKey : String) : (exec sha256 limits (.call (.subscribe kind clientKey)) s).Ends id := by
  have hother {kind' : StreamKind} {subscriber : RealtimeSubscriber}
      (hlookup : (s.gateway.subscribers kind').lookup id = some subscriber) :
      id ≠ s.gateway.nextSubscriberID := ne_of_lt (hs.numbered.old hlookup)
  intro kind' subscriber hlookup
  unfold exec Gateway.subscribe at hlookup ⊢
  dsimp only at hlookup ⊢
  split at hlookup
  · rename_i hfull
    have hne := hother hlookup
    rw [if_pos hfull]
    exact (h kind' subscriber hlookup).congr (Function.update_of_ne hne ..)
      (Function.update_of_ne hne ..)
      rfl rfl
  · rename_i hfull
    rw [if_neg hfull]
    rcases Gateway.lookup_subscribe hlookup with ⟨rfl, rfl, -⟩ | hlookup
    · refine endsCurrent_of_new (Function.update_self ..) (Function.update_self ..) ?_
      dsimp only
      rw [Function.update_self]
    · have hne := hother hlookup
      refine (h kind' subscriber hlookup).congr (Function.update_of_ne hne ..)
        (Function.update_of_ne hne ..) ?_ rfl
      dsimp only
      rw [Function.update_of_ne hne]

theorem ends_unsubscribe [DecidableEq H] (h : s.Ends id) (kind : StreamKind) (id' : Nat) :
    (exec sha256 limits (.call (.unsubscribe kind id')) s).Ends id := by
  intro kind' subscriber hlookup
  unfold exec GatewayCall.exec Gateway.unsubscribe at hlookup ⊢
  dsimp only at hlookup ⊢
  split at hlookup
  · exact (h kind' subscriber hlookup).congr rfl rfl rfl rfl
  · rename_i old hold
    refine (h kind' subscriber (Gateway.lookup_unsubscribe hlookup).1).congr rfl rfl ?_ rfl
    dsimp only
    by_cases hid : id = old.updates
    · rw [hid, Function.update_self, Channel.buffer_close]
    · rw [Function.update_of_ne hid]

/-- A publication that changes the snapshot has to find room in the channel of the subscriber. -/
theorem ends_publishIfChanged [DecidableEq H] (hs : s.Published sha256) (h : s.Ends id)
    (kind : StreamKind) (payload : Payload) :
    (exec sha256 limits (.call (.publishIfChanged kind payload)) s).Ends id ↔
      (sha256 payload = s.gateway.hash kind ∨ (s.gateway.subscribers kind).lookup id = none ∨
        (s.gateway.channels id).buffer.length < channelCapacity) := by
  have hexec : exec sha256 limits (.call (.publishIfChanged kind payload)) s =
      { s with gateway := s.gateway.publishIfChanged sha256 kind payload } := rfl
  by_cases hchanged : sha256 payload = s.gateway.hash kind
  · have hsame : s.gateway.publishIfChanged sha256 kind payload = s.gateway := if_pos hchanged
    rw [hexec, hsame]
    exact iff_of_true h (.inl hchanged)
  have hsubscribers :
      (s.gateway.publishIfChanged sha256 kind payload).subscribers = s.gateway.subscribers := by
    rw [Gateway.publishIfChanged, if_neg hchanged]
  have hsnapshot : (s.gateway.publishIfChanged sha256 kind payload).snapshot =
      Function.update s.gateway.snapshot kind payload := by
    rw [Gateway.publishIfChanged, if_neg hchanged]
  have hchannel := Gateway.channels_publishIfChanged hs.numbered hchanged id
  rw [hexec]
  cases hregistered : (s.gateway.subscribers kind).lookup id with
  | none =>
    rw [hregistered] at hchannel
    refine iff_of_true (fun kind' subscriber hlookup => ?_) (.inr (.inl rfl))
    dsimp only at hlookup
    rw [hsubscribers] at hlookup
    have hne : kind' ≠ kind := by
      rintro rfl
      rw [hregistered] at hlookup
      cases hlookup
    refine (h kind' subscriber hlookup).congr rfl rfl (congrArg Channel.buffer hchannel) ?_
    dsimp only
    rw [hsnapshot, Function.update_of_ne hne]
  | some subscriber =>
    rw [hregistered, Option.isSome_some, if_pos rfl, Channel.trySend,
      hs.numbered.opened hregistered,
      if_neg (by decide)] at hchannel
    by_cases hroom : (s.gateway.channels id).buffer.length < channelCapacity
    · rw [if_pos hroom] at hchannel
      refine iff_of_true (fun kind' subscriber' hlookup => ?_) (.inr (.inr hroom))
      dsimp only at hlookup
      rw [hsubscribers] at hlookup
      obtain rfl := hs.numbered.once hlookup hregistered
      have hbuffer := congrArg Channel.buffer hchannel
      rw [EndsCurrent, getLastD_pending (by dsimp only; rw [hbuffer]; simp)]
      dsimp only
      rw [hbuffer, hsnapshot, Function.update_self, List.getLastD_concat]
    · rw [if_neg hroom] at hchannel
      have hbuffer : (s.gateway.channels id).buffer ≠ [] := by
        intro hempty
        rw [hempty] at hroom
        exact hroom (by decide)
      refine iff_of_false (fun hends => ?_) (by simp [hchanged, hroom])
      -- what the subscriber gets last is the snapshot of before
      have hold := h kind subscriber hregistered
      have hnew := hends kind subscriber (by dsimp only; rw [hsubscribers, hregistered])
      rw [EndsCurrent, getLastD_pending hbuffer] at hold
      rw [EndsCurrent, getLastD_pending (by dsimp only; rw [hchannel]; exact hbuffer)] at hnew
      dsimp only at hnew
      rw [hchannel, hold, hsnapshot, Function.update_self] at hnew
      rw [hs.hash hregistered hbuffer, hnew] at hchanged
      exact hchanged rfl

theorem ends_writeSnapshot (hs : s.Published sha256) (h : s.Ends id) (kind : StreamKind)
    (id' : Nat) :
    (s.writeSnapshot kind id').Ends id := by
  intro kind' subscriber hlookup
  rw [gateway_writeSnapshot] at hlookup
  by_cases hid : id' = id
  · subst hid
    cases hregistered : (s.gateway.subscribers kind).lookup id' with
    | none =>
      have hsame : s.writeSnapshot kind id' = s := by
        rw [writeSnapshot, hregistered]
        rfl
      rw [hsame]
      exact h kind' subscriber hlookup
    | some other =>
      obtain rfl := hs.numbered.once hlookup hregistered
      rw [EndsCurrent, pending_writeSnapshot hlookup, gateway_writeSnapshot]
      exact h kind' subscriber hlookup
  · unfold writeSnapshot
    split
    · exact (h kind' subscriber hlookup).congr (Function.update_of_ne (Ne.symm hid) ..)
        (Function.update_of_ne (Ne.symm hid) ..) rfl rfl
    · exact h kind' subscriber hlookup

theorem ends_writeUpdate (h : s.Ends id) (id' : Nat) : (s.writeUpdate id').Ends id := by
  intro kind' subscriber hlookup
  rw [subscribers_writeUpdate] at hlookup
  by_cases hid : id' = id
  · subst hid
    rw [EndsCurrent, pending_writeUpdate, snapshot_writeUpdate]
    exact h kind' subscriber hlookup
  · unfold writeUpdate
    split
    · refine (h kind' subscriber hlookup).congr (Function.update_of_ne (Ne.symm hid) ..) rfl ?_ rfl
      dsimp only
      rw [Function.update_of_ne (Ne.symm hid)]
    · exact h kind' subscriber hlookup

/-- A publication that changes the snapshot finds room in the channel of the subscriber. -/
def findsRoom [DecidableEq H] (sha256 : Payload → H) (id : Nat) : StreamStep → StreamSystem H → Bool
  | .call (.publishIfChanged kind payload), s =>
    sha256 payload = s.gateway.hash kind || (s.gateway.subscribers kind).lookup id = none ||
      (s.gateway.channels id).buffer.length < channelCapacity
  | _, _ => true

theorem ends_step [DecidableEq H] (hs : s.Published sha256) (h : s.Ends id) (step : StreamStep) :
    (exec sha256 limits step s).Ends id ↔ findsRoom sha256 id step s = true := by
  cases step with
  | call call =>
    cases call with
    | subscribe kind clientKey => exact iff_of_true (ends_subscribe hs h kind clientKey) rfl
    | publishIfChanged kind payload =>
      rw [ends_publishIfChanged hs h, findsRoom]
      simp only [Bool.or_eq_true, decide_eq_true_eq, or_assoc]
    | unsubscribe kind id' => exact iff_of_true (ends_unsubscribe h kind id') rfl
  | writeSnapshot kind id' => exact iff_of_true (ends_writeSnapshot hs h kind id') rfl
  | writeUpdate id' => exact iff_of_true (ends_writeUpdate h id') rfl

/-! ## Runs -/

theorem published_new (zero : H) : (new zero).Published sha256 :=
  ⟨Gateway.numbered_new zero, fun _ hbuffer => absurd rfl hbuffer⟩

theorem gateway_exec_call [DecidableEq H] (call : GatewayCall) :
    (exec sha256 limits (.call call) s).gateway = call.exec sha256 limits s.gateway := by
  cases call <;> rfl

theorem numbered_writeUpdate (h : s.gateway.Numbered) (id : Nat) :
    (s.writeUpdate id).gateway.Numbered := by
  unfold writeUpdate
  split
  · rename_i payload channel hstarted hreceive
    obtain ⟨hclosed, hmisused⟩ := Channel.flags_receive hreceive
    refine ⟨h.old, h.own, h.once, @fun kind id' subscriber hid => ?_, fun id' => ?_⟩
    · have hopened := h.opened hid
      dsimp only
      by_cases heq : id' = id
      · rw [heq] at hopened
        rw [heq, Function.update_self, hclosed, hopened]
      · rw [Function.update_of_ne heq, hopened]
    · dsimp only
      by_cases heq : id' = id
      · rw [heq, Function.update_self, hmisused, h.lawful]
      · rw [Function.update_of_ne heq, h.lawful]
  · exact h

theorem hashed_call [DecidableEq H] (hs : s.Published sha256) (call : GatewayCall)
    (hlookup : ((call.exec sha256 limits s.gateway).subscribers kind).lookup id = some subscriber)
    (hbuffer : ((call.exec sha256 limits s.gateway).channels id).buffer ≠ []) :
    (call.exec sha256 limits s.gateway).hash kind =
      sha256 ((call.exec sha256 limits s.gateway).snapshot kind) := by
  cases call with
  | subscribe kind' clientKey =>
    unfold GatewayCall.exec Gateway.subscribe at hlookup hbuffer ⊢
    dsimp only at hlookup hbuffer ⊢
    split at hlookup
    · rename_i hfull
      rw [if_pos hfull] at hbuffer ⊢
      exact hs.hash hlookup hbuffer
    · rename_i hfull
      rw [if_neg hfull] at hbuffer ⊢
      dsimp only at hbuffer ⊢
      rcases Gateway.lookup_subscribe hlookup with ⟨-, rfl, -⟩ | hold
      · rw [Function.update_self] at hbuffer
        exact absurd rfl hbuffer
      · rw [Function.update_of_ne (ne_of_lt (hs.numbered.old hold))] at hbuffer
        exact hs.hash hold hbuffer
  | publishIfChanged kind' payload =>
    rw [GatewayCall.exec] at hlookup hbuffer ⊢
    by_cases hchanged : sha256 payload = s.gateway.hash kind'
    · rw [Gateway.publishIfChanged, if_pos hchanged] at hlookup hbuffer ⊢
      exact hs.hash hlookup hbuffer
    rw [Gateway.channels_publishIfChanged hs.numbered hchanged] at hbuffer
    rw [Gateway.publishIfChanged, if_neg hchanged] at hlookup ⊢
    dsimp only at hlookup ⊢
    by_cases hkind : kind = kind'
    · rw [hkind, Function.update_self, Function.update_self]
    · have hnone : ¬ ((s.gateway.subscribers kind').lookup id).isSome = true := by
        intro hsome
        obtain ⟨other, hother⟩ := Option.isSome_iff_exists.mp hsome
        exact hkind (hs.numbered.once hlookup hother)
      rw [if_neg hnone] at hbuffer
      rw [Function.update_of_ne hkind, Function.update_of_ne hkind]
      exact hs.hash hlookup hbuffer
  | unsubscribe kind' id' =>
    unfold GatewayCall.exec Gateway.unsubscribe at hlookup hbuffer ⊢
    dsimp only at hlookup hbuffer ⊢
    cases hold : (s.gateway.subscribers kind').lookup id' with
    | none =>
      rw [hold] at hlookup hbuffer
      exact hs.hash hlookup hbuffer
    | some old =>
      rw [hold] at hlookup hbuffer
      dsimp only at hlookup hbuffer ⊢
      refine hs.hash (Gateway.lookup_unsubscribe hlookup).1 ?_
      by_cases hid : id = old.updates
      · rwa [hid, Function.update_self, Channel.buffer_close, ← hid] at hbuffer
      · rwa [Function.update_of_ne hid] at hbuffer

theorem hashed_writeUpdate (hs : s.Published sha256) {id' : Nat}
    (hlookup : (s.gateway.subscribers kind).lookup id = some subscriber)
    (hbuffer : ((s.writeUpdate id').gateway.channels id).buffer ≠ []) :
    s.gateway.hash kind = sha256 (s.gateway.snapshot kind) := by
  refine hs.hash hlookup fun hempty => hbuffer ?_
  unfold writeUpdate
  split
  · rename_i payload channel hstarted hreceive
    have hne : id ≠ id' := by
      rintro rfl
      rw [Channel.receive, hempty] at hreceive
      cases hreceive
    dsimp only
    rw [Function.update_of_ne hne, hempty]
  · exact hempty

theorem published_step [DecidableEq H] (hs : s.Published sha256) (step : StreamStep) :
    (exec sha256 limits step s).Published sha256 := by
  cases step with
  | call call =>
    constructor
    · rw [gateway_exec_call]
      exact Gateway.numbered_exec call hs.numbered
    · rw [gateway_exec_call]
      exact fun hlookup hbuffer => hashed_call hs call hlookup hbuffer
  | writeSnapshot kind id =>
    constructor
    · rw [exec, gateway_writeSnapshot]
      exact hs.numbered
    · rw [exec, gateway_writeSnapshot]
      exact hs.hash
  | writeUpdate id =>
    constructor
    · exact numbered_writeUpdate hs.numbered id
    · rw [exec, subscribers_writeUpdate, snapshot_writeUpdate, hash_writeUpdate]
      exact fun hlookup hbuffer => hashed_writeUpdate hs hlookup hbuffer

/-- A subscriber that drains its channel ends at the current snapshot, wherever publishing stops, in
exactly the runs in which every publication that changes the snapshot finds room in its channel. -/
theorem catchesUp_run_iff [DecidableEq H] (sha256 : Payload → H) (zero : H)
    (limits : SubscriberLimits)
    (id : Nat) (steps : List StreamStep) :
    Runs.Always (exec sha256 limits) (CatchesUp sha256 limits id) (new zero) steps ↔
      Runs.EachCall (exec sha256 limits) (fun step s =>
        findsRoom sha256 id step s = true) (new zero)
        steps := by
  have hends : CatchesUp sha256 limits id = fun s : StreamSystem H => s.Ends id :=
    funext fun s => propext catchesUp_iff
  rw [hends]
  exact Runs.always_iff_eachCall (published_new zero) (fun _ _ => nofun) (fun step s hs =>
    published_step hs step)
    fun step s hs h => ends_step hs h step

/-- A reader that is slower than a burst of updates misses the last one of them for good. -/
theorem not_catchesUp : ¬ ∀ (sha256 : Payload →
    Payload) (zero : Payload) (limits : SubscriberLimits)
    (id : Nat) (steps : List StreamStep),
    Runs.Always (exec sha256 limits) (CatchesUp sha256 limits id) (new zero) steps := by
  intro h
  let publications : List StreamStep :=
    [1, 2, 3, 4, 5, 6, 7, 8, 9].map fun n => .call (.publishIfChanged .scoreboard [n])
  let drain : List StreamStep := .writeSnapshot .scoreboard 0 :: List.replicate 8 (.writeUpdate 0)
  have hcatches := (h id [] {} 0 (.call (.subscribe .scoreboard "client") :: publications)).last
  have hshows := hcatches .scoreboard ⟨0, "client"⟩ (by decide) drain
    (List.forall_mem_cons.mpr ⟨.inl rfl, fun _ hstep => .inr (List.eq_of_mem_replicate hstep)⟩)
    ⟨by decide, by decide⟩
  -- the ninth publication is the snapshot, the eighth was written last
  exact absurd hshows (by unfold ShowsCurrent; decide)

end StreamSystem

end ADPlatform.RealtimeGateway
