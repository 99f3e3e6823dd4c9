import ActorNet.Proofs.Wiring
import Mathlib.Data.List.Induction

set_option autoImplicit false

/-!
# Tokens are neither lost nor made up

What is emitted on an output leaves it in whole chunks, each returned by a drain or shipped to every target
of the port at that moment; and what arrives at an input is consumed from it in the order of its arrival.
-/
namespace ActorNet.Registry

variable {σ : Type}

/-- What a delivery takes from an output, whole, to each of its targets. -/
structure Shipment where
  source : PortAddr
  tokens : List Token
  targets : List PortAddr

def shipments (r : Registry σ) : Operation σ → List Shipment
  | .edit .. => []
  | .fire id =>
    match r.firing id with
    | some (fired, .ok result) =>
      if result.didFire then
        (fired.outgoing id).map fun (name, tokens) => ⟨⟨id, name⟩, tokens, r.targets ⟨id, name⟩⟩
      else []
    | _ => []

def drained (r : Registry σ) (addr : PortAddr) : Operation σ → List (List Token)
  | .edit (.drain source) _ =>
    match (r.change (.drain source)).2 with
    | .ok (.drained tokens) => if source = addr then [tokens] else []
    | _ => []
  | _ => []

def removed (r : Registry σ) (addr : PortAddr) (operation : Operation σ) : List (List Token) :=
  r.drained addr operation ++ ((r.shipments operation).filter (·.source = addr)).map (·.tokens)

def emitted (r : Registry σ) (addr : PortAddr) : Operation σ → List Token
  | .fire id => if id = addr.actor then Actor.producedBy (r.fireActor id).value.2 addr else []
  | .edit .. => []

def pushed (r : Registry σ) (addr : PortAddr) : Operation σ → List Token
  | .edit (.push target token) _ =>
    match (r.change (.push target token)).2 with
    | .ok _ => if target = addr then [token] else []
    | .error _ => []
  | _ => []

def arrived (r : Registry σ) (addr : PortAddr) (operation : Operation σ) : List Token :=
  r.pushed addr operation ++
    (r.shipments operation).flatMap fun shipment => if addr ∈ shipment.targets then shipment.tokens else []

def consumed (r : Registry σ) (addr : PortAddr) : Operation σ → List Token
  | .fire id =>
    if id = addr.actor then ((r.actor? id).map (·.taken addr.port)).getD [] else []
  | .edit .. => []

theorem mem_outgoing {r : Registry σ} {id : ActorId} {name : String} {tokens : List Token}
    (h : (name, tokens) ∈ r.outgoing id) :
    ∃ port, r.portAt ⟨id, name⟩ = some port ∧ port.direction = .output ∧ port.queue = tokens := by
  unfold outgoing at h
  cases hactor : r.actor? id with
  | none =>
    rw [hactor] at h
    cases h
  | some actor =>
    rw [hactor] at h
    obtain ⟨other, hother, heq⟩ := List.mem_map.mp h
    cases heq
    obtain ⟨⟨name', port⟩, hentry, rfl⟩ := List.mem_map.mp (List.mem_filter.mp hother).1
    obtain ⟨hport, hdirection⟩ := List.mem_filter.mp hentry
    rw [Std.ExtTreeMap.mem_toList_iff_getElem?_eq_some] at hport
    refine ⟨port, ?_, (of_decide_eq_true hdirection).1, ?_⟩
    · rw [portAt, hactor]
      exact hport
    · rw [hport]
      rfl

theorem outgoing_distinct (r : Registry σ) (id : ActorId) : ((r.outgoing id).map Prod.fst).Nodup := by
  unfold outgoing
  cases r.actor? id with
  | none => exact List.nodup_nil
  | some actor =>
    have hkeys : (actor.ports.toList.map Prod.fst).Nodup := by
      rw [Std.ExtTreeMap.map_fst_toList_eq_keys]
      exact Std.ExtTreeMap.nodup_keys
    have hpending : actor.ports.pendingOutputs.Nodup := hkeys.sublist (List.filter_sublist.map _)
    simpa [Function.comp_def] using hpending.filter _

theorem mem_targets {r : Registry σ} {source target : PortAddr} :
    target ∈ r.targets source ↔ (⟨source, target⟩ : Wire) ∈ r.wires := by
  unfold targets
  rw [List.mem_map]
  constructor
  · rintro ⟨wire, hwire, rfl⟩
    obtain ⟨hmem, hsource⟩ := List.mem_filter.mp hwire
    rwa [← of_decide_eq_true hsource]
  · intro hwire
    exact ⟨_, List.mem_filter.mpr ⟨hwire, decide_eq_true rfl⟩, rfl⟩

theorem targets_distinct {r : Registry σ} (h : r.Wired) (source : PortAddr) : (r.targets source).Nodup := by
  refine List.Nodup.map_on ?_ (h.distinct.filter _)
  intro wire hwire other hother htarget
  have hsource := of_decide_eq_true (List.mem_filter.mp hwire).2
  have hsame := of_decide_eq_true (List.mem_filter.mp hother).2
  cases wire
  cases other
  simp_all

theorem target_input {r : Registry σ} (h : r.Wired) {source target : PortAddr} (htarget : target ∈ r.targets source) :
    (r.portAt target).map Port.direction = some .input :=
  h.target _ (mem_targets.mp htarget)

theorem flatMap_ite_of_nodup {targets : List PortAddr} (distinct : targets.Nodup) (addr : PortAddr)
    (tokens : List Token) :
    (targets.flatMap fun target => if target = addr then tokens else []) =
      if addr ∈ targets then tokens else [] := by
  induction targets with
  | nil => rfl
  | cons target targets ih =>
    obtain ⟨hfresh, hdistinct⟩ := List.nodup_cons.mp distinct
    rw [List.flatMap_cons, ih hdistinct]
    by_cases h : target = addr
    · subst h
      simp [hfresh]
    · simp [h, Ne.symm h]

/-! ## One operation -/

/-- What an operation does to a port whose queue it leaves as told. -/
structure Balanced (r : Registry σ) (operation : Operation σ) (addr : PortAddr) (port : Port)
    (queue : List Token) : Prop where
  output : port.direction = .output →
    port.queue ++ r.emitted addr operation = (r.removed addr operation).flatten ++ queue
  input : port.direction = .input →
    port.queue ++ r.arrived addr operation = r.consumed addr operation ++ queue

theorem portAt_modify (r : Registry σ) (g : Actor σ → Actor σ) {id : ActorId} {f : Entrant σ → Entrant σ}
    (change : ∀ e, (f e).actor = g e.actor) (named : ∀ actor, actor.id = id → (g actor).id = id)
    (same : ∀ actor, r.actor? id = some actor → (g actor).ports = actor.ports) (addr : PortAddr) :
    (r.modify id f).portAt addr = r.portAt addr := by
  unfold portAt
  rw [r.actor?_modify g change named]
  cases hactor : r.actor? addr.actor with
  | none => rfl
  | some actor =>
    by_cases h : addr.actor = id
    · rw [h] at hactor
      simp [h, same actor hactor]
    · simp [h]

theorem portAt_migrated {r : Registry σ} {id : ActorId} {e : Entrant σ} (h : r.entry? id = some e)
    {actor : Actor σ} {answer : Except MigrationError Unit} (migrated : e.actor.didMigrate = (actor, answer))
    {f : Entrant σ → Entrant σ} (change : ∀ e, (f e).actor = actor) (addr : PortAddr) :
    (r.modify id f).portAt addr = r.portAt addr := by
  refine r.portAt_modify (fun _ => actor) change (fun _ _ => didMigrate_named h migrated) (fun other hother => ?_) addr
  rw [actor?, h] at hother
  cases hother
  rw [Actor.didMigrate_frame migrated]

theorem balanced_of_refused {r : Registry σ} {change : Edit σ} (fits : change.Fits) {e : ActorError}
    (refused : (r.change change).2 = .error e) (addr : PortAddr) (port : Port) :
    r.Balanced (.edit change fits) addr port port.queue := by
  have hdrained : r.drained addr (.edit change fits) = [] := by
    cases change <;> simp [drained, refused]
  have hpushed : r.pushed addr (.edit change fits) = [] := by
    cases change <;> simp [pushed, refused]
  constructor
  · simp [removed, hdrained, shipments, emitted]
  · simp [arrived, hpushed, shipments, consumed]

theorem balanced_push {r r' : Registry σ} {target : PortAddr} {token : Token} (fits : (Edit.push target token).Fits)
    (done : r.change (.push target token) = (r', .ok .done)) {input : Port} (htarget : r.portAt target = some input)
    (hinput : input.direction = .input) {addr : PortAddr} {port : Port} (hport : r.portAt addr = some port) :
    r.Balanced (.edit (.push target token) fits) addr port (port.queue ++ if target = addr then [token] else []) where
  output hout := by
    have hother : target ≠ addr := by
      rintro rfl
      rw [htarget] at hport
      cases hport
      rw [hinput] at hout
      cases hout
    simp [hother, emitted, removed, drained, shipments]
  input _ := by simp [arrived, pushed, done, shipments, consumed]

theorem balanced_drain {r r' : Registry σ} {source : PortAddr} {output : Port} (fits : (Edit.drain source).Fits)
    (done : r.change (.drain source) = (r', .ok (.drained output.queue))) (hsource : r.portAt source = some output)
    (houtput : output.direction = .output) {addr : PortAddr} {port : Port} (hport : r.portAt addr = some port) :
    r.Balanced (.edit (.drain source) fits) addr port (if source = addr then [] else port.queue) where
  output _ := by
    by_cases hthis : source = addr
    · subst hthis
      rw [hsource] at hport
      cases hport
      simp [removed, drained, done, shipments, emitted]
    · simp [removed, drained, done, shipments, emitted, hthis]
  input hin := by
    have hother : source ≠ addr := by
      rintro rfl
      rw [hsource] at hport
      cases hport
      rw [houtput] at hin
      cases hin
    rw [if_neg hother]
    exact List.append_nil _

theorem edit_balanced {r : Registry σ} (change : Edit σ) (fits : change.Fits) {addr : PortAddr} {port : Port}
    (hport : r.portAt addr = some port) (stays : (r.change change).1.contains addr.actor = true) :
    ∃ queue, (r.change change).1.portAt addr = some { port with queue } ∧
      r.Balanced (.edit change fits) addr port queue := by
  have hnone : ∀ q : List Token, q ++ [] = q := List.append_nil
  have hchanged := r.change_changed change
  rcases hvalue : r.change change with ⟨r', answer⟩
  rw [hvalue] at hchanged stays
  cases hchanged with
  | refused _ e => exact ⟨port.queue, hport, balanced_of_refused fits (congrArg Prod.snd hvalue) addr port⟩
  | added actor fresh => exact ⟨port.queue, portAt_enroll fresh hport, fun _ => hnone _, fun _ => hnone _⟩
  | removed id =>
    have hother : addr.actor ≠ id := by
      intro hid
      obtain ⟨actor, hactor⟩ := contains_iff.mp stays
      rw [actor?_without, if_pos hid] at hactor
      cases hactor
    exact ⟨port.queue, (portAt_without hother).trans hport, fun _ => hnone _, fun _ => hnone _⟩
  | paused id | resumed id | terminated id =>
    refine ⟨port.queue, Eq.trans ?_ hport, fun _ => hnone _, fun _ => hnone _⟩
    refine r.portAt_modify (fun actor => actor) ?_ (fun _ hid => hid) (fun _ _ => rfl) addr
    exact fun _ => rfl
  | left id =>
    refine ⟨port.queue, Eq.trans ?_ hport, fun _ => hnone _, fun _ => hnone _⟩
    exact r.portAt_modify Actor.willMigrate (fun _ => rfl) (fun _ hid => hid) (fun _ _ => rfl) addr
  | arrived id e actor hentry hstatus hanswer =>
    refine ⟨port.queue, Eq.trans ?_ hport, fun _ => hnone _, fun _ => hnone _⟩
    exact portAt_migrated hentry hanswer (fun _ => rfl) addr
  | turnedBack id e actor refusal hentry hstatus hanswer =>
    refine ⟨port.queue, Eq.trans ?_ hport, fun _ => hnone _, fun _ => hnone _⟩
    exact portAt_migrated hentry hanswer (fun _ => rfl) addr
  | connected | connectedBefore => exact ⟨port.queue, hport, fun _ => hnone _, fun _ => hnone _⟩
  | pushed target token input htarget hinput =>
    refine ⟨port.queue ++ if target = addr then [token] else [], ?_, balanced_push fits hvalue htarget hinput hport⟩
    rw [portAt_push, hport]
    rfl
  | drained source output hsource houtput =>
    refine ⟨if source = addr then [] else port.queue, ?_, balanced_drain fits hvalue hsource houtput hport⟩
    rw [portAt_setQueue, hport]
    rfl

theorem firing_portAt {r fired : Registry σ} (h : r.Wired) {id : ActorId}
    {outcome : Outcome FiringError FiringResult} (firing : r.firing id = some (fired, outcome)) {addr : PortAddr}
    {port : Port} (hport : r.portAt addr = some port) :
    ∃ queue, fired.portAt addr = some { port with queue } ∧
      (port.direction = .output →
        queue = port.queue ++ if id = addr.actor then Actor.producedBy outcome addr else []) ∧
      (port.direction = .input → r.consumed addr (.fire id) ++ queue = port.queue) := by
  obtain ⟨actor, hactor, hfired⟩ := Option.map_eq_some_iff.mp firing
  cases hfired
  have hid : actor.id = id := actor?_id hactor
  have hfires := actor.fire_fired
  by_cases hthis : id = addr.actor
  · subst hthis
    obtain ⟨other, hother, hports⟩ := Option.bind_eq_some_iff.mp hport
    rw [hactor] at hother
    cases hother
    obtain ⟨queue, hqueue, houtput, hinput⟩ := hfires.port (h.fits _ _ hactor) hports
    refine ⟨queue, ?_, ?_, ?_⟩
    · rw [portAt, r.actor?_setActor (hfires.id.trans hid), hactor]
      simpa using hqueue
    · rw [if_pos rfl]
      rw [hid] at houtput
      exact houtput
    · simpa [consumed, hactor] using hinput
  · refine ⟨port.queue, ?_, fun _ => ?_, fun _ => ?_⟩
    · rw [portAt, r.actor?_setActor (hfires.id.trans hid)]
      rw [portAt] at hport
      simpa [Ne.symm hthis] using hport
    · rw [if_neg hthis, List.append_nil]
    · simp [consumed, hthis]

theorem fireActor_producedBy {r fired : Registry σ} {id : ActorId} {outcome : Outcome FiringError FiringResult}
    (firing : r.firing id = some (fired, outcome)) (addr : PortAddr) :
    Actor.producedBy (r.fireActor id).value.2 addr = Actor.producedBy outcome addr := by
  rw [fireActor_value, firing]
  rcases outcome with result | e | payload
  · dsimp only
    split <;> rfl
  · rfl
  · rfl

theorem shipped_flatten {outgoing : List (String × List Token)} (distinct : (outgoing.map Prod.fst).Nodup)
    {name : String} {queue : List Token} (whole : ∀ tokens, (name, tokens) ∈ outgoing → tokens = queue) :
    ((outgoing.filter (·.1 = name)).map Prod.snd).flatten =
      if name ∈ outgoing.map Prod.fst then queue else [] := by
  induction outgoing with
  | nil => rfl
  | cons head outgoing ih =>
    rcases head with ⟨other, tokens⟩
    obtain ⟨hfresh, hdistinct⟩ := List.nodup_cons.mp distinct
    have hrest := ih hdistinct fun tokens htokens => whole tokens (List.mem_cons_of_mem _ htokens)
    by_cases h : other = name
    · subst h
      rw [if_neg hfresh] at hrest
      simp [hrest, whole tokens List.mem_cons_self]
    · have hmem : name ∈ ((other, tokens) :: outgoing).map Prod.fst ↔ name ∈ outgoing.map Prod.fst := by
        rw [List.map_cons, List.mem_cons]
        exact or_iff_right (Ne.symm h)
      rw [List.filter_cons_of_neg (by simpa using h), hrest]
      simp only [hmem]

section Delivered

variable {r fired : Registry σ} {id : ActorId} {addr : PortAddr} {port : Port}

theorem removed_flatten
    (shipments : r.shipments (.fire id) =
      (fired.outgoing id).map fun (name, tokens) => ⟨⟨id, name⟩, tokens, r.targets ⟨id, name⟩⟩)
    (hport : fired.portAt addr = some port) :
    (r.removed addr (.fire id)).flatten =
      if addr.actor = id ∧ addr.port ∈ (fired.outgoing id).map Prod.fst then port.queue else [] := by
  have hremoved : r.removed addr (.fire id) =
      ((fired.outgoing id).filter fun entry => (⟨id, entry.1⟩ : PortAddr) = addr).map Prod.snd := by
    change [] ++ _ = _
    rw [shipments, List.filter_map, List.map_map]
    rfl
  rw [hremoved]
  by_cases hid : addr.actor = id
  · subst hid
    have hwhole : ∀ tokens, (addr.port, tokens) ∈ fired.outgoing addr.actor → tokens = port.queue := by
      intro tokens htokens
      obtain ⟨other, hother, -, hqueue⟩ := mem_outgoing htokens
      rw [hport] at hother
      rw [← hqueue, Option.some.inj hother]
    have hname : ∀ entry : String × List Token, (⟨addr.actor, entry.1⟩ : PortAddr) = addr ↔ entry.1 = addr.port := by
      intro entry
      rcases addr with ⟨actor, name⟩
      simp
    simp only [hname, true_and]
    exact shipped_flatten (fired.outgoing_distinct addr.actor) hwhole
  · have hother : ∀ entry : String × List Token, ¬(⟨id, entry.1⟩ : PortAddr) = addr :=
      fun entry heq => hid (congrArg PortAddr.actor heq.symm)
    simp [hother, hid]

theorem arrived_eq_brought (h : r.Wired) (alike : r.Alike fired)
    (shipments : r.shipments (.fire id) =
      (fired.outgoing id).map fun (name, tokens) => ⟨⟨id, name⟩, tokens, r.targets ⟨id, name⟩⟩) :
    r.arrived addr (.fire id) = fired.brought id (fired.outgoing id) addr := by
  change [] ++ _ = _
  rw [shipments, List.flatMap_map, List.nil_append]
  unfold brought
  congr 1
  funext ⟨name, tokens⟩
  dsimp only
  rw [targets_of_wires alike.wires, flatMap_ite_of_nodup (targets_distinct h _)]

theorem brought_output (h : r.Wired) (alike : r.Alike fired) (hport : r.portAt addr = some port)
    (output : port.direction = .output) (outgoing : List (String × List Token)) :
    fired.brought id outgoing addr = [] := by
  unfold brought
  rw [List.flatMap_eq_nil_iff]
  intro entry _
  rw [List.flatMap_eq_nil_iff]
  intro target htarget
  rw [targets_of_wires alike.wires] at htarget
  refine if_neg fun hsame => ?_
  have hinput := target_input h htarget
  rw [hsame, hport, Option.map_some, output] at hinput
  cases hinput

theorem delivered_balanced (h : r.Wired) {result : FiringResult}
    (firing : r.firing id = some (fired, .ok result)) (didFire : result.didFire = true)
    (hport : r.portAt addr = some port) :
    ∃ queue, (fired.deliver id).1.portAt addr = some { port with queue } ∧
      r.Balanced (.fire id) addr port queue := by
  obtain ⟨queue, hfired, houtput, hinput⟩ := firing_portAt h firing hport
  have halike := firing_alike firing
  have hshipments : r.shipments (.fire id) =
      (fired.outgoing id).map fun (name, tokens) => ⟨⟨id, name⟩, tokens, r.targets ⟨id, name⟩⟩ := by
    rw [shipments, firing]
    exact if_pos didFire
  have hdelivered := fired.deliver_portAt id addr
  rw [hfired] at hdelivered
  refine ⟨_, hdelivered, fun hout => ?_, fun hin => ?_⟩
  · have hemitted : port.queue ++ r.emitted addr (.fire id) = queue := by
      rw [emitted, fireActor_producedBy firing, houtput hout]
    rw [hemitted, removed_flatten hshipments hfired, brought_output h halike hport hout, List.append_nil]
    by_cases hgone : addr.actor = id ∧ addr.port ∈ (fired.outgoing id).map Prod.fst
    · rw [if_pos hgone, if_pos hgone, List.append_nil]
    · rw [if_neg hgone, if_neg hgone, List.nil_append]
  · have hkept : ¬(addr.actor = id ∧ addr.port ∈ (fired.outgoing id).map Prod.fst) := by
      rintro ⟨rfl, hmem⟩
      obtain ⟨⟨name, tokens⟩, hentry, hname⟩ := List.mem_map.mp hmem
      dsimp only at hname
      subst hname
      obtain ⟨other, hother, hout, -⟩ := mem_outgoing hentry
      rw [hfired] at hother
      rw [← Option.some.inj hother, hin] at hout
      cases hout
    rw [if_neg hkept, arrived_eq_brought h halike hshipments, ← List.append_assoc, hinput hin]

theorem undelivered_balanced (h : r.Wired) {outcome : Outcome FiringError FiringResult}
    (firing : r.firing id = some (fired, outcome)) (nothing : r.shipments (.fire id) = [])
    (hport : r.portAt addr = some port) :
    ∃ queue, fired.portAt addr = some { port with queue } ∧ r.Balanced (.fire id) addr port queue := by
  obtain ⟨queue, hfired, houtput, hinput⟩ := firing_portAt h firing hport
  refine ⟨queue, hfired, fun hout => ?_, fun hin => ?_⟩
  · rw [emitted, fireActor_producedBy firing, ← houtput hout, removed, nothing]
    rfl
  · rw [hinput hin, arrived, nothing]
    exact List.append_nil _

end Delivered

theorem fire_balanced {r : Registry σ} (h : r.Wired) (id : ActorId) {addr : PortAddr} {port : Port}
    (hport : r.portAt addr = some port) :
    ∃ queue, (r.fireActor id).value.1.portAt addr = some { port with queue } ∧
      r.Balanced (.fire id) addr port queue := by
  rw [fireActor_value]
  rcases hfiring : r.firing id with _ | ⟨fired, outcome⟩
  · have hunknown : r.actor? id = none := Option.map_eq_none_iff.mp hfiring
    have hvalue := r.fireActor_value id
    rw [hfiring] at hvalue
    refine ⟨port.queue, hport, fun _ => ?_, fun _ => ?_⟩
    · simp [emitted, hvalue, Actor.producedBy, removed, drained, shipments, hfiring]
    · simp [arrived, pushed, shipments, hfiring, consumed, hunknown]
  · rcases outcome with result | e | payload
    · dsimp only
      by_cases hfire : result.didFire = true
      · rw [if_pos hfire]
        exact delivered_balanced h hfiring hfire hport
      · rw [if_neg hfire]
        refine undelivered_balanced h hfiring ?_ hport
        rw [shipments, hfiring]
        exact if_neg hfire
    · refine undelivered_balanced h hfiring ?_ hport
      rw [shipments, hfiring]
    · refine undelivered_balanced h hfiring ?_ hport
      rw [shipments, hfiring]

theorem operate_balanced {r : Registry σ} (h : r.Wired) (operation : Operation σ) {addr : PortAddr} {port : Port}
    (hport : r.portAt addr = some port) (stays : (r.operate operation).contains addr.actor = true) :
    ∃ queue, (r.operate operation).portAt addr = some { port with queue } ∧
      r.Balanced operation addr port queue := by
  cases operation with
  | edit change fits =>
    rw [operate, edit_value] at stays ⊢
    exact edit_balanced change fits hport stays
  | fire id => exact fire_balanced h id hport

/-! ## A run -/

def along {α : Type} (f : Registry σ → Operation σ → List α) : Registry σ → List (Operation σ) → List α
  | _, [] => []
  | r, operation :: operations => f r operation ++ along f (r.operate operation) operations

theorem along_concat {α : Type} (f : Registry σ → Operation σ → List α) (r : Registry σ)
    (operations : List (Operation σ)) (last : Operation σ) :
    along f r (operations ++ [last]) = along f r operations ++ f (r.after operations) last := by
  induction operations generalizing r with
  | nil => exact List.append_nil _
  | cons operation operations ih =>
    rw [List.cons_append, along, along, ih, List.append_assoc]
    rfl

/-- An actor is registered after the operations of `before` and stays during those of `after`. -/
structure Enrolled (operations before after : List (Operation σ)) (actor : Actor σ) : Prop where
  split : ∃ fits, operations = before ++ .edit (.add actor) fits :: after
  fresh : ((empty : Registry σ).after before).contains actor.id = false
  stays : ∀ first rest, after = first ++ rest →
    ((((empty : Registry σ).after before).enroll actor).after first).contains actor.id = true

/-- What has become of the tokens of a port during a run, from a given queue on. -/
structure Account (r : Registry σ) (operations : List (Operation σ)) (addr : PortAddr) (opening port : Port) :
    Prop where
  direction : port.direction = opening.direction
  output : opening.direction = .output →
    opening.queue ++ along (emitted · addr) r operations =
      (along (removed · addr) r operations).flatten ++ port.queue
  input : opening.direction = .input →
    opening.queue ++ along (arrived · addr) r operations =
      along (consumed · addr) r operations ++ port.queue

/-- A shipment goes to the targets of its source at that moment, once to each, and each is there to take it. -/
structure Shipment.Complete (r : Registry σ) (shipment : Shipment) : Prop where
  targets : shipment.targets = r.targets shipment.source
  distinct : shipment.targets.Nodup
  inputs : ∀ target ∈ shipment.targets, (r.portAt target).map Port.direction = some .input

/-- Each port of a registered actor has an account from its registration on. -/
structure Conserved (operations : List (Operation σ)) : Prop where
  account : ∀ addr port, ((empty : Registry σ).after operations).portAt addr = some port →
    ∃ before after actor opening, Enrolled operations before after actor ∧ actor.id = addr.actor ∧
      actor.ports[addr.port]? = some opening ∧
        Account (((empty : Registry σ).after before).enroll actor) after addr opening port
  shipped : ∀ before operation rest, operations = before ++ operation :: rest →
    ∀ shipment ∈ ((empty : Registry σ).after before).shipments operation,
      shipment.Complete ((empty : Registry σ).after before)

theorem Account.concat {r : Registry σ} {operations : List (Operation σ)} {addr : PortAddr} {opening port : Port}
    (account : r.Account operations addr opening port) {last : Operation σ} {queue : List Token}
    (balanced : (r.after operations).Balanced last addr port queue) :
    r.Account (operations ++ [last]) addr opening { port with queue } where
  direction := account.direction
  output houtput := by
    have hport : port.direction = .output := account.direction.trans houtput
    rw [along_concat, along_concat, List.flatten_append, ← List.append_assoc, account.output houtput,
      List.append_assoc, balanced.output hport, ← List.append_assoc]
  input hinput := by
    have hport : port.direction = .input := account.direction.trans hinput
    rw [along_concat, along_concat, ← List.append_assoc, account.input hinput, List.append_assoc,
      balanced.input hport, ← List.append_assoc]

theorem operate_add {r : Registry σ} {actor : Actor σ} (fits : (Edit.add actor).Fits)
    (fresh : r.contains actor.id = false) : r.operate (.edit (.add actor) fits) = r.enroll actor := by
  rw [operate, edit_value, change, add, fresh]
  rfl

section Enrolled

variable {operations before after : List (Operation σ)} {actor : Actor σ}

theorem Enrolled.state (h : Enrolled operations before after actor) :
    (((empty : Registry σ).after before).enroll actor).after after = (empty : Registry σ).after operations := by
  obtain ⟨fits, hsplit⟩ := h.split
  rw [hsplit, after_append, ← operate_add fits h.fresh]
  rfl

theorem Enrolled.concat (h : Enrolled operations before after actor) {last : Operation σ}
    (stays : ((empty : Registry σ).after (operations ++ [last])).contains actor.id = true) :
    Enrolled (operations ++ [last]) before (after ++ [last]) actor where
  split := by
    obtain ⟨fits, hsplit⟩ := h.split
    refine ⟨fits, ?_⟩
    rw [hsplit]
    simp
  fresh := h.fresh
  stays := by
    intro first rest heq
    rcases List.eq_nil_or_concat rest with rfl | ⟨rest, other, rfl⟩
    · rw [List.append_nil] at heq
      rw [← heq, after_append, h.state, ← after_append]
      exact stays
    · rw [List.concat_eq_append, ← List.append_assoc] at heq
      obtain ⟨hafter, -⟩ := List.append_inj' heq rfl
      exact h.stays first rest hafter

end Enrolled

theorem contains_of_portAt {r : Registry σ} {addr : PortAddr} {port : Port} (h : r.portAt addr = some port) :
    r.contains addr.actor = true := by
  obtain ⟨actor, hactor, -⟩ := Option.bind_eq_some_iff.mp h
  exact contains_iff.mpr ⟨actor, hactor⟩

theorem operate_portAt {r : Registry σ} {operation : Operation σ} {addr : PortAddr} {port : Port}
    (h : (r.operate operation).portAt addr = some port) :
    (∃ actor fits, operation = .edit (.add actor) fits ∧ r.contains actor.id = false ∧ actor.id = addr.actor ∧
        actor.ports[addr.port]? = some port) ∨
      ∃ old, r.portAt addr = some old := by
  rcases r.operate_outline operation with ⟨actor, fits, rfl, fresh, hr⟩ | ⟨id, fits, rfl, hr⟩ | hsame
  · rw [hr, portAt, actor?_enroll fresh] at h
    by_cases hid : addr.actor = actor.id
    · rw [if_pos hid] at h
      exact .inl ⟨actor, fits, rfl, fresh, hid.symm, h⟩
    · rw [if_neg hid] at h
      exact .inr ⟨port, h⟩
  · rw [hr, portAt, actor?_without] at h
    by_cases hid : addr.actor = id
    · rw [if_pos hid] at h
      cases h
    · rw [if_neg hid] at h
      exact .inr ⟨port, h⟩
  · have hdirection := congrArg (Option.map Port.direction) h
    rw [portAt_direction, hsame, ← portAt_direction] at hdirection
    obtain ⟨old, hold, -⟩ := Option.map_eq_some_iff.mp hdirection
    exact .inr ⟨old, hold⟩

theorem account_after (operations : List (Operation σ)) {addr : PortAddr} {port : Port}
    (h : ((empty : Registry σ).after operations).portAt addr = some port) :
    ∃ before after actor opening, Enrolled operations before after actor ∧ actor.id = addr.actor ∧
      actor.ports[addr.port]? = some opening ∧
        Account (((empty : Registry σ).after before).enroll actor) after addr opening port := by
  induction operations using List.reverseRecOn generalizing port with
  | nil => cases h
  | append_singleton operations last ih =>
    have hstays := contains_of_portAt h
    have hstate : (empty : Registry σ).after (operations ++ [last]) =
        ((empty : Registry σ).after operations).operate last := after_append _ _ _
    rw [hstate] at h
    rcases operate_portAt h with ⟨actor, fits, rfl, fresh, hid, hport⟩ | ⟨old, hold⟩
    · refine ⟨operations, [], actor, port, ⟨⟨fits, rfl⟩, fresh, fun first rest heq => ?_⟩, hid, hport,
        rfl, fun _ => List.append_nil _, fun _ => List.append_nil _⟩
      rw [(List.append_eq_nil_iff.mp heq.symm).1]
      rw [hstate, operate_add fits fresh, ← hid] at hstays
      exact hstays
    · obtain ⟨before, after, actor, opening, henrolled, hid, hopening, haccount⟩ := ih hold
      have hwired : ((empty : Registry σ).after operations).Wired := wired_empty.after operations
      rw [hstate] at hstays
      obtain ⟨queue, hqueue, hbalanced⟩ := operate_balanced hwired last hold hstays
      rw [hqueue] at h
      cases h
      rw [← henrolled.state] at hbalanced
      refine ⟨before, after ++ [last], actor, opening, henrolled.concat ?_, hid, hopening,
        haccount.concat hbalanced⟩
      rw [hstate, hid]
      exact hstays

theorem shipments_complete {r : Registry σ} (h : r.Wired) {operation : Operation σ} {shipment : Shipment}
    (hshipment : shipment ∈ r.shipments operation) : shipment.Complete r := by
  cases operation with
  | edit => cases hshipment
  | fire id =>
    have htargets : ∃ name tokens, shipment = ⟨⟨id, name⟩, tokens, r.targets ⟨id, name⟩⟩ := by
      rw [shipments] at hshipment
      split at hshipment
      · split at hshipment
        · obtain ⟨⟨name, tokens⟩, -, heq⟩ := List.mem_map.mp hshipment
          exact ⟨name, tokens, heq.symm⟩
        · cases hshipment
      · cases hshipment
    obtain ⟨name, tokens, rfl⟩ := htargets
    exact ⟨rfl, targets_distinct h _, fun target htarget => target_input h htarget⟩

/-- Tokens are neither lost nor made up, nor do they overtake each other, whatever is done to a registry. -/
theorem tokens_conserved (operations : List (Operation σ)) : Conserved operations where
  account addr port := account_after operations
  shipped := by
    rintro before operation rest -
    exact fun shipment => shipments_complete (wired_empty.after before)

end ActorNet.Registry
