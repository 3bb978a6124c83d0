import ADPlatform.Lib.Channel
import ADPlatform.Lib.Runs
import ADPlatform.Lib.Tally

/-! # The subscribers of the realtime gateway

The gateway keeps the subscribers of every stream, their number and how many each client has. A
subscription comes with a closure that ends it, which may be called at any time and more than once.
All three structures agree in every state (`accounted_run`). -/

namespace ADPlatform.RealtimeGateway

/-! ## The gateway -/

/-- The streams that clients can follow. -/
inductive StreamKind where
  | scoreboard | adminScoreboard | attacks | gameStatus | schedulerEvents | checkerRuns
  deriving DecidableEq, Repr

/-- All streams. -/
def StreamKind.all : List StreamKind :=
  [scoreboard, adminScoreboard, attacks, gameStatus, schedulerEvents, checkerRuns]

theorem StreamKind.mem_all (kind : StreamKind) : kind ∈ all := by cases kind <;> decide

theorem StreamKind.nodup_all : all.Nodup := by decide

/-- A snapshot as it is sent. -/
abbrev Payload := List UInt8

/-- A subscriber; `updates` tells its channel. -/
structure RealtimeSubscriber where
  updates : Nat
  clientKey : String
  deriving DecidableEq, Repr

/-- How many clients there may be, in all and from one address. -/
structure SubscriberLimits where
  maxSubscribers : Nat := 2000
  maxPerClient : Nat := 12
  deriving DecidableEq, Repr

/-- The state of the gateway and the channels that it has made, one for each subscriber. `H` are the
hash values. -/
structure Gateway (H : Type) where
  snapshot : StreamKind → Payload
  hash : StreamKind → H
  subscribers : StreamKind → Go.Map Nat RealtimeSubscriber
  nextSubscriberID : Nat
  subscriberTotal : Int
  subscribersByClient : Go.Map String Int
  channels : Nat → Channel Payload

/-- The capacity of a subscriber's channel. -/
def channelCapacity : Nat := 8

namespace Gateway
variable {H : Type}

/-- `newRealtimeGateway`, with the zero hash. -/
def new (zero : H) : Gateway H where
  snapshot _ := []
  hash _ := zero
  subscribers _ := ∅
  nextSubscriberID := 0
  subscriberTotal := 0
  subscribersByClient := ∅
  channels _ := {}

/-- `publishIfChanged`: a payload with the stream's last hash is not sent again. -/
def publishIfChanged [DecidableEq H] (sha256 : Payload → H) (kind : StreamKind) (payload : Payload)
    (g : Gateway H) : Gateway H :=
  if sha256 payload = g.hash kind then g
  else { g with
    hash := Function.update g.hash kind (sha256 payload)
    snapshot := Function.update g.snapshot kind payload
    channels := Channel.sendAll channelCapacity payload
      ((g.subscribers kind).pairs.map fun (_, subscriber) => subscriber.updates) g.channels }

/-- The gateway refuses a client beyond its limits. -/
def full (limits : SubscriberLimits) (clientKey : String) (g : Gateway H) : Bool :=
  limits.maxSubscribers ≤ g.subscriberTotal ||
    limits.maxPerClient ≤ g.subscribersByClient.get clientKey 0

/-- `subscribe`: refused while a limit is reached. -/
def subscribe (limits : SubscriberLimits) (kind : StreamKind) (clientKey : String) (g : Gateway H) :
    Gateway H :=
  if g.full limits clientKey then g
  else { g with
    nextSubscriberID := g.nextSubscriberID + 1
    subscribers := Function.update g.subscribers kind
      ((g.subscribers kind).insert g.nextSubscriberID ⟨g.nextSubscriberID, clientKey⟩)
    subscriberTotal := g.subscriberTotal + 1
    subscribersByClient := Tally.increment clientKey g.subscribersByClient
    channels := Function.update g.channels g.nextSubscriberID {} }

/-- The closure of a subscription, which has captured its stream and its number. -/
def unsubscribe (kind : StreamKind) (id : Nat) (g : Gateway H) : Gateway H :=
  match (g.subscribers kind).lookup id with
  | none => g
  | some subscriber => { g with
    subscribers := Function.update g.subscribers kind ((g.subscribers kind).erase id)
    channels := Function.update g.channels subscriber.updates (g.channels subscriber.updates).close
    subscriberTotal := g.subscriberTotal - 1
    subscribersByClient := Tally.decrement subscriber.clientKey g.subscribersByClient }

end Gateway

/-- The calls of the gateway. -/
inductive GatewayCall where
  | subscribe (kind : StreamKind) (clientKey : String)
  | publishIfChanged (kind : StreamKind) (payload : Payload)
  | unsubscribe (kind : StreamKind) (id : Nat)
  deriving DecidableEq, Repr

/-- The gateway after a call. -/
def GatewayCall.exec {H : Type} [DecidableEq H] (sha256 : Payload → H) (limits : SubscriberLimits) :
    GatewayCall → Gateway H → Gateway H
  | .subscribe kind clientKey, g => g.subscribe limits kind clientKey
  | .publishIfChanged kind payload, g => g.publishIfChanged sha256 kind payload
  | .unsubscribe kind id, g => g.unsubscribe kind id

namespace Gateway
variable {H : Type}

/-! ## Registered subscribers -/

/-- The subscribers of all streams. -/
def registered (subscribers : StreamKind → Go.Map Nat RealtimeSubscriber) :
    List RealtimeSubscriber :=
  StreamKind.all.flatMap fun kind => (subscribers kind).pairs.map (·.2)

/-- The subscribers of the other streams. -/
def registeredElsewhere (subscribers : StreamKind → Go.Map Nat RealtimeSubscriber)
    (kind : StreamKind) :
    List RealtimeSubscriber :=
  (StreamKind.all.erase kind).flatMap fun kind => (subscribers kind).pairs.map (·.2)

theorem registered_perm (subscribers : StreamKind → Go.Map Nat RealtimeSubscriber)
    (kind : StreamKind) :
    (registered subscribers).Perm
      ((subscribers kind).pairs.map (·.2) ++ registeredElsewhere subscribers kind) :=
  (List.perm_cons_erase kind.mem_all).flatMap_right _

theorem registeredElsewhere_update (subscribers : StreamKind → Go.Map Nat RealtimeSubscriber)
    (kind : StreamKind) (m : Go.Map Nat RealtimeSubscriber) :
    registeredElsewhere (Function.update subscribers kind m) kind =
      registeredElsewhere subscribers kind := by
  refine List.flatMap_congr fun other hother => ?_
  have hne : other ≠ kind := (StreamKind.nodup_all.mem_erase_iff.mp hother).1
  rw [Function.update_of_ne hne]

/-- One more subscriber. -/
theorem registered_insert {subscribers : StreamKind → Go.Map Nat RealtimeSubscriber}
    {kind : StreamKind}
    {id : Nat} (subscriber : RealtimeSubscriber) (hnew : (subscribers kind).lookup id = none) :
    (registered (Function.update subscribers kind ((subscribers kind).insert id subscriber))).Perm
      (subscriber :: registered subscribers) := by
  refine (registered_perm _ kind).trans ?_
  rw [registeredElsewhere_update, Function.update_self, Go.Map.pairs_insert hnew, List.map_cons,
    List.cons_append]
  exact ((registered_perm subscribers kind).symm).cons subscriber

/-- One subscriber less. -/
theorem registered_erase {subscribers : StreamKind → Go.Map Nat RealtimeSubscriber}
    {kind : StreamKind}
    {id : Nat} {subscriber : RealtimeSubscriber}
    (hold : (subscribers kind).lookup id = some subscriber) :
    (registered subscribers).Perm
      (subscriber ::
        registered (Function.update subscribers kind ((subscribers kind).erase id))) := by
  refine (registered_perm subscribers kind).trans ?_
  have hpairs := ((Go.Map.pairs_perm_erase hold).map (·.2)).append_right
    (registeredElsewhere subscribers kind)
  refine hpairs.trans ?_
  have hrest :=
    registered_perm (Function.update subscribers kind ((subscribers kind).erase id)) kind
  rw [registeredElsewhere_update, Function.update_self] at hrest
  exact hrest.symm.cons subscriber

/-! ## Invariants -/

/-- Every number has been given out once, and the channel of a subscriber is open. -/
structure Numbered (g : Gateway H) : Prop where
  old : ∀ {kind id subscriber}, (g.subscribers kind).lookup id = some subscriber →
    id < g.nextSubscriberID
  own : ∀ {kind id subscriber}, (g.subscribers kind).lookup id = some subscriber →
    subscriber.updates = id
  once : ∀ {kind kind' id subscriber subscriber'}, (g.subscribers kind).lookup id =
    some subscriber →
    (g.subscribers kind').lookup id = some subscriber' → kind = kind'
  opened : ∀ {kind id subscriber}, (g.subscribers kind).lookup id = some subscriber →
    (g.channels id).closed = false
  lawful : ∀ id, (g.channels id).misused = false

/-- The counts agree with the subscribers, and none is beyond its limit. -/
structure Counted (limits : SubscriberLimits) (g : Gateway H) : Prop where
  total : g.subscriberTotal = (registered g.subscribers).length
  clients : Tally.Tallies g.subscribersByClient ((registered g.subscribers).map (·.clientKey))
  totalLimit : (registered g.subscribers).length ≤ limits.maxSubscribers
  clientLimit : ∀ clientKey,
    ((registered g.subscribers).map (·.clientKey)).count clientKey ≤ limits.maxPerClient

variable {g : Gateway H} {limits : SubscriberLimits} {kind : StreamKind} {id : Nat}
  {subscriber : RealtimeSubscriber}

theorem Numbered.fresh (h : g.Numbered) (kind : StreamKind) :
    (g.subscribers kind).lookup g.nextSubscriberID = none := by
  cases hlookup : (g.subscribers kind).lookup g.nextSubscriberID with
  | none => rfl
  | some subscriber => exact absurd (h.old hlookup) (lt_irrefl _)

theorem numbered_new (zero : H) : (new zero).Numbered := ⟨nofun, nofun, nofun, nofun, fun _ => rfl⟩

theorem counted_new (zero : H) : (new zero).Counted limits := by
  have hnone : registered (new zero).subscribers = [] := rfl
  refine ⟨rfl, Tally.tallies_nil, ?_, fun _ => ?_⟩
  · rw [hnone]
    exact Nat.zero_le _
  · rw [hnone]
    exact Nat.zero_le _

/-- A subscriber after another one has come. -/
theorem lookup_subscribe {clientKey : String} {kind' : StreamKind}
    (h : (Function.update g.subscribers kind ((g.subscribers kind).insert g.nextSubscriberID
      ⟨g.nextSubscriberID, clientKey⟩) kind').lookup id = some subscriber) :
    (kind' = kind ∧ id = g.nextSubscriberID ∧ subscriber = ⟨id, clientKey⟩) ∨
      (g.subscribers kind').lookup id = some subscriber := by
  by_cases hkind : kind' = kind
  · subst hkind
    rw [Function.update_self] at h
    by_cases hid : id = g.nextSubscriberID
    · subst hid
      rw [AList.lookup_insert] at h
      exact .inl ⟨rfl, rfl, (Option.some.inj h).symm⟩
    · rw [AList.lookup_insert_ne hid] at h
      exact .inr h
  · rw [Function.update_of_ne hkind] at h
    exact .inr h

theorem Numbered.subscribe (h : g.Numbered) (kind : StreamKind) (clientKey : String) :
    (g.subscribe limits kind clientKey).Numbered := by
  unfold Gateway.subscribe
  split
  · exact h
  refine ⟨fun hid => ?_, fun hid => ?_, fun hid hid' => ?_, fun hid => ?_, fun id => ?_⟩
  · rcases lookup_subscribe hid with ⟨-, rfl, -⟩ | hid
    · exact Nat.lt_succ_self _
    · exact Nat.lt_succ_of_lt (h.old hid)
  · rcases lookup_subscribe hid with ⟨-, -, rfl⟩ | hid
    · rfl
    · exact h.own hid
  · rcases lookup_subscribe hid with ⟨rfl, rfl, -⟩ | hid
    · rcases lookup_subscribe hid' with ⟨rfl, -⟩ | hid'
      · rfl
      · exact absurd (h.old hid') (lt_irrefl _)
    · rcases lookup_subscribe hid' with ⟨-, rfl, -⟩ | hid'
      · exact absurd (h.old hid) (lt_irrefl _)
      · exact h.once hid hid'
  · dsimp only
    rcases lookup_subscribe hid with ⟨-, rfl, -⟩ | hid
    · rw [Function.update_self]
    · rw [Function.update_of_ne (ne_of_lt (h.old hid))]
      exact h.opened hid
  · dsimp only
    by_cases hid : id = g.nextSubscriberID
    · rw [hid, Function.update_self]
    · rw [Function.update_of_ne hid]
      exact h.lawful id

theorem Counted.subscribe (h : g.Counted limits) (hg : g.Numbered) (kind : StreamKind)
    (clientKey : String) : (g.subscribe limits kind clientKey).Counted limits := by
  unfold Gateway.subscribe
  split
  · exact h
  rename_i hfull
  simp only [full, Bool.or_eq_true, decide_eq_true_eq, not_or, not_le, h.total,
    h.clients.get] at hfull
  obtain ⟨htotal, hclient⟩ := hfull
  have hperm := registered_insert ⟨g.nextSubscriberID, clientKey⟩ (hg.fresh kind)
  have hkeys := hperm.map (·.clientKey)
  refine ⟨?_, (h.clients.increment clientKey).perm hkeys.symm, ?_, fun key => ?_⟩
  · rw [hperm.length_eq, List.length_cons, h.total]
    push_cast
    rfl
  · rw [hperm.length_eq, List.length_cons]
    omega
  · rw [hkeys.count_eq, List.map_cons, List.count_cons]
    have := h.clientLimit key
    split
    · rename_i heq
      have heq : clientKey = key := eq_of_beq heq
      subst heq
      exact Int.ofNat_lt.mp hclient
    · exact this

theorem lookup_unsubscribe {kind' : StreamKind} {id' : Nat} {subscriber' : RealtimeSubscriber}
    (h : (Function.update g.subscribers kind ((g.subscribers kind).erase id) kind').lookup id' =
      some subscriber') : (g.subscribers kind').lookup id' = some subscriber' ∧
        ¬ (kind' = kind ∧ id' = id) := by
  by_cases hkind : kind' = kind
  · subst hkind
    rw [Function.update_self] at h
    refine ⟨Go.Map.lookup_of_erase h, fun hid => ?_⟩
    rw [hid.2, AList.lookup_erase] at h
    cases h
  · rw [Function.update_of_ne hkind] at h
    exact ⟨h, fun hid => hkind hid.1⟩

theorem Numbered.unsubscribe (h : g.Numbered) (kind : StreamKind) (id : Nat) :
    (g.unsubscribe kind id).Numbered := by
  unfold Gateway.unsubscribe
  split
  · exact h
  rename_i subscriber hold
  have hown := h.own hold
  rw [hown]
  refine ⟨fun hid => ?_, fun hid => ?_, fun hid hid' => ?_, @fun kind' id' _ hid =>
    ?_, fun id' => ?_⟩
  · exact h.old (lookup_unsubscribe hid).1
  · exact h.own (lookup_unsubscribe hid).1
  · exact h.once (lookup_unsubscribe hid).1 (lookup_unsubscribe hid').1
  · obtain ⟨hlookup, hne⟩ := lookup_unsubscribe hid
    have hother : id' ≠ id := by
      intro heq
      rw [heq] at hlookup hne
      exact hne ⟨h.once hlookup hold, rfl⟩
    dsimp only
    rw [Function.update_of_ne hother]
    exact h.opened hlookup
  · dsimp only
    by_cases hid : id' = id
    · rw [hid, Function.update_self, Channel.misused_close (h.opened hold)]
      exact h.lawful id
    · rw [Function.update_of_ne hid]
      exact h.lawful id'

theorem Counted.unsubscribe (h : g.Counted limits) (kind : StreamKind) (id : Nat) :
    (g.unsubscribe kind id).Counted limits := by
  unfold Gateway.unsubscribe
  split
  · exact h
  rename_i subscriber hold
  have hperm := registered_erase hold
  have hkeys := hperm.map (·.clientKey)
  have htotal := h.totalLimit
  rw [hperm.length_eq, List.length_cons] at htotal
  refine ⟨?_, (h.clients.perm hkeys).decrement, ?_, fun key => ?_⟩
  · dsimp only
    rw [h.total, hperm.length_eq, List.length_cons]
    omega
  · exact Nat.le_of_succ_le htotal
  · have := h.clientLimit key
    rw [hkeys.count_eq, List.map_cons] at this
    exact (List.count_le_count_cons ..).trans this

variable [DecidableEq H]

/-- The channels after a publication: those of the stream's subscribers have got it. -/
theorem channels_publishIfChanged (h : g.Numbered) {sha256 : Payload → H} {payload : Payload}
    (hchanged : sha256 payload ≠ g.hash kind) (id : Nat) :
    (g.publishIfChanged sha256 kind payload).channels id =
      if ((g.subscribers kind).lookup id).isSome then
        (g.channels id).trySend channelCapacity payload
      else g.channels id := by
  have hids : (g.subscribers kind).pairs.map (fun (_, subscriber) => subscriber.updates) =
      (g.subscribers kind).keys := by
    rw [← Go.Map.map_fst_pairs]
    exact List.map_congr_left fun (_, _) hmem => h.own (Go.Map.mem_pairs.mp hmem)
  rw [publishIfChanged, if_neg hchanged]
  dsimp only
  rw [hids, Channel.sendAll_apply (g.subscribers kind).keys_nodup]
  simp only [Go.Map.mem_keys]

theorem Numbered.publishIfChanged (h : g.Numbered) (sha256 : Payload → H) (kind : StreamKind)
    (payload : Payload) : (g.publishIfChanged sha256 kind payload).Numbered := by
  by_cases hchanged : sha256 payload = g.hash kind
  · rw [Gateway.publishIfChanged, if_pos hchanged]
    exact h
  have hsubscribers : (g.publishIfChanged sha256 kind payload).subscribers = g.subscribers := by
    rw [Gateway.publishIfChanged, if_neg hchanged]
  have hnext : (g.publishIfChanged sha256 kind payload).nextSubscriberID = g.nextSubscriberID := by
    rw [Gateway.publishIfChanged, if_neg hchanged]
  refine ⟨?_, ?_, ?_, ?_, ?_⟩
  · rw [hsubscribers, hnext]
    exact h.old
  · rw [hsubscribers]
    exact h.own
  · rw [hsubscribers]
    exact h.once
  · intro kind' id subscriber hid
    rw [hsubscribers] at hid
    rw [channels_publishIfChanged h hchanged]
    split
    · rw [Channel.closed_trySend]
      exact h.opened hid
    · exact h.opened hid
  · intro id
    rw [channels_publishIfChanged h hchanged]
    split
    · rename_i hid
      obtain ⟨subscriber, hid⟩ := Option.isSome_iff_exists.mp hid
      rw [Channel.misused_trySend (h.opened hid)]
      exact h.lawful id
    · exact h.lawful id

theorem Counted.publishIfChanged (h : g.Counted limits) (sha256 : Payload → H) (kind : StreamKind)
    (payload : Payload) : (g.publishIfChanged sha256 kind payload).Counted limits := by
  unfold Gateway.publishIfChanged
  split
  · exact h
  · exact ⟨h.total, h.clients, h.totalLimit, h.clientLimit⟩

theorem numbered_exec {sha256 : Payload → H} (call : GatewayCall) (h : g.Numbered) :
    (call.exec sha256 limits g).Numbered := by
  cases call with
  | subscribe kind clientKey => exact h.subscribe kind clientKey
  | publishIfChanged kind payload => exact h.publishIfChanged sha256 kind payload
  | unsubscribe kind id => exact h.unsubscribe kind id

theorem counted_exec {sha256 : Payload → H} (call : GatewayCall) (h : g.Counted limits)
    (hg : g.Numbered) : (call.exec sha256 limits g).Counted limits := by
  cases call with
  | subscribe kind clientKey => exact h.subscribe hg kind clientKey
  | publishIfChanged kind payload => exact h.publishIfChanged sha256 kind payload
  | unsubscribe kind id => exact h.unsubscribe kind id

/-- In every state the counts are those of the registered subscribers, no limit is exceeded, and no
closed channel has been sent on or closed. -/
theorem accounted_run (sha256 : Payload → H) (zero : H) (limits : SubscriberLimits)
    (calls : List GatewayCall) : Runs.Always (GatewayCall.exec sha256 limits)
      (fun g => g.Counted limits ∧ ∀ id, (g.channels id).misused = false) (new zero) calls := by
  rintro before after rfl
  have hstep (call : GatewayCall) (g : Gateway H) (h : g.Numbered ∧ g.Counted limits) :
      (call.exec sha256 limits g).Numbered ∧ (call.exec sha256 limits g).Counted limits :=
    ⟨numbered_exec call h.1, counted_exec call h.2 h.1⟩
  have h : (Runs.run (GatewayCall.exec sha256 limits) (new zero) before).Numbered ∧
      (Runs.run (GatewayCall.exec sha256 limits) (new zero) before).Counted limits :=
    Runs.run_invariant ⟨numbered_new zero, counted_new zero⟩ hstep
  exact ⟨h.2, h.1.lawful⟩

end Gateway

end ADPlatform.RealtimeGateway
