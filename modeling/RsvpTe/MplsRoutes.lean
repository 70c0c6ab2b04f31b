import RsvpTe.Lib.FirstFit
import RsvpTe.State

/-!
# The MPLS route cache (`hal_netlink_linux.c`)

`hal_mpls_install` and `hal_mpls_remove` keep an array of routes for `hal_mpls_dump` beside what they
tell the kernel.  An install writes the first slot that is inactive or has the key of the route, so
an active route is written a second time when an inactive slot stands before it.  One without a next
hop leaves that of the slot, which may be another route's.

`RouteRun` are the runs of calls that are clean of both, together with the map that the cache stands
for.
-/

namespace Rsvp

open FirstFit

/-- `MAX_MPLS_ROUTES`. -/
def maxMplsRoutes : Nat := 4096

/-- `struct mpls_route`. -/
structure MplsRoute : Type where
  inLabel : UInt32
  outLabel : UInt32
  ifindex : UInt32
  nextHop : InAddr
  destAddr : InAddr
  active : Bool
  deriving DecidableEq

/-- The routes of static storage. -/
def MplsRoute.zero : MplsRoute := ⟨0, 0, 0, 0, 0, false⟩

/-- The route of a key: an ingress route goes by its destination, any other by its label. -/
def MplsRoute.isFor (route : MplsRoute) (inLabel : UInt32) (dest : InAddr) : Bool :=
  if inLabel = 0 then route.inLabel = 0 ∧ route.destAddr = dest else route.inLabel = inLabel

/-- The cache part of `hal_mpls_install`.  Without a next hop that of the slot stays. -/
def cacheInstall (inLabel outLabel ifindex : UInt32) (nextHop : Option InAddr) (dest : InAddr) :
    List MplsRoute → List MplsRoute
  | [] => []
  | route :: routes =>
    if route.active = false ∨ route.isFor inLabel dest then
      ⟨inLabel, outLabel, ifindex, nextHop.getD route.nextHop, dest, true⟩ :: routes
    else route :: cacheInstall inLabel outLabel ifindex nextHop dest routes

/-- The cache part of `hal_mpls_remove`. -/
def cacheRemove (inLabel : UInt32) (dest : InAddr) (routes : List MplsRoute) : List MplsRoute :=
  routes.map fun route =>
    if route.active ∧ route.isFor inLabel dest then { route with active := false } else route

/-- `mpls_routes`. -/
structure RouteCache : Type where
  routes : List MplsRoute
  size : routes.length = maxMplsRoutes

/-- The key of an active route. -/
def MplsRoute.key (route : MplsRoute) : Option FwdKey :=
  if route.active then some (fwdKey route.inLabel route.destAddr) else none

theorem MplsRoute.key_eq_none_iff {route : MplsRoute} :
    route.key = none ↔ route.active = false := by
  unfold key
  cases route.active with
  | false => exact ⟨fun _ => rfl, fun _ => rfl⟩
  | true =>
    constructor
    · intro none
      cases none
    · intro idle
      cases idle

theorem MplsRoute.isFor_iff {route : MplsRoute} {inLabel : UInt32} {dest : InAddr} :
    route.isFor inLabel dest = true ↔
      fwdKey route.inLabel route.destAddr = fwdKey inLabel dest := by
  rw [fwdKey_eq_iff, isFor]
  by_cases push : inLabel = 0
  · subst push
    rw [if_pos rfl, decide_eq_true_iff]
    exact ⟨fun both => ⟨both.1, fun _ => both.2⟩, fun both => ⟨both.1, both.2 both.1⟩⟩
  · rw [if_neg push, decide_eq_true_iff]
    exact ⟨fun same => ⟨same, fun zero => absurd (same.symm.trans zero) push⟩, And.left⟩

theorem MplsRoute.key_eq_some_iff {route : MplsRoute} {inLabel : UInt32} {dest : InAddr} :
    route.key = some (fwdKey inLabel dest) ↔
      route.active = true ∧ route.isFor inLabel dest = true := by
  rw [isFor_iff, key]
  cases route.active with
  | false =>
    constructor
    · intro none
      cases none
    · intro both
      cases both.1
  | true => exact ⟨fun same => ⟨rfl, Option.some.inj same⟩, fun both => congrArg some both.2⟩

/-- Unused slots have no key. -/
theorem keys_replicate_zero (n : Nat) :
    keys MplsRoute.key (List.replicate n .zero) = [] := by
  refine List.filterMap_eq_nil_iff.mpr fun route mem => ?_
  rw [List.eq_of_mem_replicate mem]
  rfl

/-- What an install writes into a slot. -/
def writeRoute (inLabel outLabel ifindex : UInt32) (nextHop : Option InAddr) (dest : InAddr)
    (route : MplsRoute) : MplsRoute :=
  ⟨inLabel, outLabel, ifindex, nextHop.getD route.nextHop, dest, true⟩

section Calls

variable {inLabel outLabel ifindex : UInt32} {nextHop : Option InAddr} {dest : InAddr}

theorem writeRoute_key (route : MplsRoute) :
    (writeRoute inLabel outLabel ifindex nextHop dest route).key = some (fwdKey inLabel dest) :=
  rfl

theorem cacheInstall_eq (routes : List MplsRoute) :
    cacheInstall inLabel outLabel ifindex nextHop dest routes =
      place MplsRoute.key (fwdKey inLabel dest)
        (writeRoute inLabel outLabel ifindex nextHop dest) routes := by
  induction routes with
  | nil => rfl
  | cons route routes ih =>
    have stops : (route.active = false ∨ route.isFor inLabel dest = true) ↔
        (route.key = none ∨ route.key = some (fwdKey inLabel dest)) := by
      rw [MplsRoute.key_eq_none_iff, MplsRoute.key_eq_some_iff]
      cases route.active with
      | false => exact ⟨fun _ => .inl rfl, fun _ => .inl rfl⟩
      | true => exact or_congr Iff.rfl ⟨fun same => ⟨rfl, same⟩, And.right⟩
    rw [cacheInstall, place, ih]
    by_cases here : route.active = false ∨ route.isFor inLabel dest = true
    · rw [if_pos here, if_pos (stops.mp here)]
      rfl
    · rw [if_neg here, if_neg fun fits => here (stops.mpr fits)]

theorem cacheRemove_eq (routes : List MplsRoute) :
    cacheRemove inLabel dest routes =
      clear MplsRoute.key (fwdKey inLabel dest) (fun route => { route with active := false })
        routes := by
  refine List.map_congr_left fun route _ => ?_
  by_cases here : route.active = true ∧ route.isFor inLabel dest = true
  · rw [if_pos here, if_pos (MplsRoute.key_eq_some_iff.mpr here)]
  · rw [if_neg here, if_neg fun key => here (MplsRoute.key_eq_some_iff.mp key)]

end Calls

namespace RouteCache

def init : RouteCache := ⟨List.replicate maxMplsRoutes .zero, List.length_replicate⟩

def install (cache : RouteCache) (inLabel outLabel ifindex : UInt32) (nextHop : Option InAddr)
    (dest : InAddr) : RouteCache :=
  ⟨cacheInstall inLabel outLabel ifindex nextHop dest cache.routes, by
    rw [cacheInstall_eq, length_place, cache.size]⟩

def remove (cache : RouteCache) (inLabel : UInt32) (dest : InAddr) : RouteCache :=
  ⟨cacheRemove inLabel dest cache.routes, by rw [cacheRemove_eq, length_clear, cache.size]⟩

/-- The active entry of a key that the scan meets first. -/
def find (cache : RouteCache) (key : FwdKey) : Option MplsRoute :=
  lookup MplsRoute.key key cache.routes

/-- The keys of the active entries, one for each entry. -/
def keys (cache : RouteCache) : List FwdKey := FirstFit.keys MplsRoute.key cache.routes

/-- The slot that an install for the key writes. -/
def slot (cache : RouteCache) (key : FwdKey) : Option MplsRoute :=
  FirstFit.slot MplsRoute.key key cache.routes

/-- An inactive slot stands before an entry of the key. -/
def Gap (cache : RouteCache) (key : FwdKey) : Prop := FirstFit.Gap MplsRoute.key key cache.routes

end RouteCache

/-! ## The map -/

/-- What the last install for a key said. -/
structure RouteInstall : Type where
  outLabel : UInt32
  ifindex : UInt32
  nextHop : Option InAddr

/-- What was installed and not removed since. -/
abbrev RouteMap : Type := FwdKey → Option RouteInstall

/-- At most `maxMplsRoutes` distinct keys are live. -/
def RouteMap.Fits (map : RouteMap) : Prop :=
  ∀ keys : List FwdKey, keys.Nodup → (∀ key ∈ keys, map key ≠ none) →
    keys.length ≤ maxMplsRoutes

/-- The entry has the out label, the interface and the next hop of the install, 0.0.0.0 for none. -/
structure MplsRoute.Agrees (route : MplsRoute) (given : RouteInstall) : Prop where
  outLabel : route.outLabel = given.outLabel
  ifindex : route.ifindex = given.ifindex
  nextHop : route.nextHop = given.nextHop.getD 0

/-- The active entries have distinct keys, and are what was last installed. -/
structure RouteCache.Represents (cache : RouteCache) (map : RouteMap) : Prop where
  unique : cache.keys.Nodup
  live : ∀ key, (cache.find key).isSome = (map key).isSome
  agrees : ∀ key route given, cache.find key = some route → map key = some given → route.Agrees given

namespace RouteCache.Represents

variable {cache : RouteCache} {map : RouteMap} {inLabel outLabel ifindex : UInt32}
  {nextHop : Option InAddr} {dest : InAddr}

theorem init : RouteCache.init.Represents fun _ => none := by
  have bare : RouteCache.init.keys = [] := keys_replicate_zero maxMplsRoutes
  have absent : ∀ key, (RouteCache.init.find key).isSome = false := fun key =>
    Bool.eq_false_iff.mpr fun found => by
      have mem : key ∈ RouteCache.init.keys := lookup_isSome_iff.mp found
      rw [bare] at mem
      cases mem
  refine ⟨bare ▸ List.nodup_nil, fun key => absent key, fun key route given _ none => ?_⟩
  cases none

/-- A key that is not live has a free slot left. -/
theorem room (rep : cache.Represents map)
    (fits : RouteMap.Fits (Function.update map (fwdKey inLabel dest)
      (some ⟨outLabel, ifindex, nextHop⟩))) :
    Room MplsRoute.key (fwdKey inLabel dest) cache.routes := by
  by_contra full
  have taken : ∀ route ∈ cache.routes, route.key ≠ none := fun route mem free =>
    full ⟨route, mem, .inl free⟩
  have absent : fwdKey inLabel dest ∉ cache.keys := by
    intro mem
    obtain ⟨route, here, key⟩ := mem_keys.mp mem
    exact full ⟨route, here, .inr key⟩
  have count : cache.keys.length = maxMplsRoutes := (length_keys taken).trans cache.size
  have more := fits (fwdKey inLabel dest :: cache.keys) (List.nodup_cons.mpr ⟨absent, rep.unique⟩)
    (fun key mem => by
      by_cases same : key = fwdKey inLabel dest
      · rw [same, Function.update_self]
        exact Option.some_ne_none _
      · have here := (List.mem_cons.mp mem).resolve_left same
        have found : (cache.find key).isSome = true := lookup_isSome_iff.mpr here
        rw [Function.update_of_ne same]
        rw [rep.live key] at found
        exact Option.isSome_iff_ne_none.mp found)
  rw [List.length_cons, count] at more
  exact absurd more (Nat.not_succ_le_self _)

/-- A cache that differs at one key, and there as the map does. -/
theorem updated (rep : cache.Represents map) {cache' : RouteCache} {at' : FwdKey}
    {given : Option RouteInstall} (unique : cache'.keys.Nodup)
    (away : ∀ key ≠ at', cache'.find key = cache.find key)
    (live : (cache'.find at').isSome = given.isSome)
    (agrees : ∀ route said, cache'.find at' = some route → given = some said →
      route.Agrees said) :
    cache'.Represents (Function.update map at' given) := by
  refine ⟨unique, fun key => ?_, fun key route said found heard => ?_⟩
  · by_cases same : key = at'
    · rw [same, Function.update_self]
      exact live
    · rw [away key same, Function.update_of_ne same]
      exact rep.live key
  · by_cases same : key = at'
    · subst same
      rw [Function.update_self] at heard
      exact agrees route said found heard
    · rw [away key same] at found
      rw [Function.update_of_ne same] at heard
      exact rep.agrees key route said found heard

/-- The entry of the key after an install. -/
theorem find_install (rep : cache.Represents map)
    (fits : RouteMap.Fits (Function.update map (fwdKey inLabel dest)
      (some ⟨outLabel, ifindex, nextHop⟩))) :
    ∃ slot, cache.slot (fwdKey inLabel dest) = some slot ∧
      (cache.install inLabel outLabel ifindex nextHop dest).find (fwdKey inLabel dest) =
        some (writeRoute inLabel outLabel ifindex nextHop dest slot) := by
  obtain ⟨slot, first, self⟩ := lookup_place_self (@writeRoute_key inLabel outLabel ifindex nextHop
    dest) (rep.room fits)
  exact ⟨slot, first, (congrArg (lookup MplsRoute.key _) (cacheInstall_eq _)).trans self⟩

/-- An install without a gap before the key and without a next hop left over in the slot represents
the updated map. -/
theorem install (rep : cache.Represents map) (clean : ¬ cache.Gap (fwdKey inLabel dest))
    (bare : nextHop = none → ∀ slot, cache.slot (fwdKey inLabel dest) = some slot →
      slot.nextHop = 0)
    (fits : RouteMap.Fits (Function.update map (fwdKey inLabel dest)
      (some ⟨outLabel, ifindex, nextHop⟩))) :
    (cache.install inLabel outLabel ifindex nextHop dest).Represents
      (Function.update map (fwdKey inLabel dest) (some ⟨outLabel, ifindex, nextHop⟩)) := by
  have placed := @cacheInstall_eq inLabel outLabel ifindex nextHop dest cache.routes
  have writes := @writeRoute_key inLabel outLabel ifindex nextHop dest
  obtain ⟨slot, first, here⟩ := rep.find_install fits
  have unique : (cache.install inLabel outLabel ifindex nextHop dest).keys.Nodup := by
    change (FirstFit.keys MplsRoute.key (cacheInstall _ _ _ _ _ _)).Nodup
    rw [placed]
    exact (nodup_place_iff writes rep.unique).mpr clean
  refine rep.updated unique (fun key other => ?_) (by rw [here]; rfl) fun route said found heard => ?_
  · exact (congrArg (lookup MplsRoute.key key) placed).trans (lookup_place_of_ne writes other)
  · cases here.symm.trans found
    cases heard
    refine ⟨rfl, rfl, ?_⟩
    cases nextHop with
    | none => exact bare rfl slot first
    | some hop => rfl

theorem remove (rep : cache.Represents map) :
    (cache.remove inLabel dest).Represents
      (Function.update map (fwdKey inLabel dest) none) := by
  have cleared := @cacheRemove_eq inLabel dest cache.routes
  have frees : ∀ route : MplsRoute, ({ route with active := false } : MplsRoute).key = none :=
    fun _ => rfl
  have here : (cache.remove inLabel dest).find (fwdKey inLabel dest) = none :=
    (congrArg (lookup MplsRoute.key _) cleared).trans (lookup_clear_self frees _)
  have unique : (cache.remove inLabel dest).keys.Nodup := by
    change (FirstFit.keys MplsRoute.key (cacheRemove _ _ _)).Nodup
    rw [cleared]
    exact nodup_clear frees rep.unique
  refine rep.updated unique (fun key other => ?_) (by rw [here]; rfl) fun route said _ heard => ?_
  · exact (congrArg (lookup MplsRoute.key key) cleared).trans (lookup_clear_of_ne frees other _)
  · cases heard

end RouteCache.Represents

/-! ## The runs -/

/-- A call that changes the cache. -/
inductive RouteCall : Type where
  | install (inLabel outLabel ifindex : UInt32) (nextHop : Option InAddr) (dest : InAddr)
  | remove (inLabel : UInt32) (dest : InAddr)

namespace RouteCall

def key : RouteCall → FwdKey
  | install inLabel _ _ _ dest => fwdKey inLabel dest
  | remove inLabel dest => fwdKey inLabel dest

def run (cache : RouteCache) : RouteCall → RouteCache
  | install inLabel outLabel ifindex nextHop dest =>
    cache.install inLabel outLabel ifindex nextHop dest
  | remove inLabel dest => cache.remove inLabel dest

/-- What is live after the call. -/
def update (map : RouteMap) : RouteCall → RouteMap
  | install inLabel outLabel ifindex nextHop dest =>
    Function.update map (fwdKey inLabel dest) (some ⟨outLabel, ifindex, nextHop⟩)
  | remove inLabel dest => Function.update map (fwdKey inLabel dest) none

/-- An install of a live key has no inactive slot before the entry of that key, and one without a
next hop goes into a slot that has none. -/
def Clean (cache : RouteCache) : RouteCall → Prop
  | install inLabel _ _ nextHop dest =>
    ¬ cache.Gap (fwdKey inLabel dest) ∧
    (nextHop = none → ∀ slot, cache.slot (fwdKey inLabel dest) = some slot → slot.nextHop = 0)
  | remove _ _ => True

variable {cache : RouteCache} {map : RouteMap}

theorem find_run_of_ne (call : RouteCall) {key : FwdKey} (other : key ≠ call.key) :
    (call.run cache).find key = cache.find key := by
  cases call with
  | install inLabel outLabel ifindex nextHop dest =>
    change lookup MplsRoute.key key (cacheInstall _ _ _ _ _ _) = _
    rw [cacheInstall_eq]
    exact lookup_place_of_ne writeRoute_key other
  | remove inLabel dest =>
    change lookup MplsRoute.key key (cacheRemove _ _ _) = _
    rw [cacheRemove_eq]
    exact lookup_clear_of_ne (fun _ => rfl) other _

/-- A call within the capacity leads to the updated map exactly when it is clean. -/
theorem represents_iff (call : RouteCall) (rep : cache.Represents map)
    (fits : (call.update map).Fits) :
    (call.run cache).Represents (call.update map) ↔ call.Clean cache := by
  cases call with
  | install inLabel outLabel ifindex nextHop dest =>
    refine ⟨fun after => ⟨?_, fun none slot first => ?_⟩,
      fun clean => rep.install clean.1 clean.2 fits⟩
    · have unique : (keys MplsRoute.key (cacheInstall inLabel outLabel ifindex nextHop dest
          cache.routes)).Nodup := after.unique
      rw [cacheInstall_eq] at unique
      exact (nodup_place_iff writeRoute_key rep.unique).mp unique
    · obtain ⟨slot', first', here⟩ := rep.find_install fits
      cases first.symm.trans first'
      have hop := (after.agrees _ _ _ here (Function.update_self _ _ _)).nextHop
      subst none
      exact hop
  | remove inLabel dest => exact ⟨fun _ => trivial, fun _ => rep.remove⟩

end RouteCall

/-- The runs of calls with at most `maxMplsRoutes` live keys, each of which is `ok` where it is
made. -/
inductive RouteRun (ok : RouteCall → RouteCache → Prop) : RouteCache → RouteMap → Prop
  | init : RouteRun ok .init fun _ => none
  | call {cache : RouteCache} {map : RouteMap} (call : RouteCall) : RouteRun ok cache map →
    (call.update map).Fits → ok call cache → RouteRun ok (call.run cache) (call.update map)

theorem RouteRun.represents {cache : RouteCache} {map : RouteMap}
    (run : RouteRun (fun call cache => call.Clean cache) cache map) : cache.Represents map := by
  induction run with
  | init => exact .init
  | call call _ fits clean ih => exact (call.represents_iff ih fits).mpr clean

/-- In every run of clean calls the cache is the map, and the next call keeps it so exactly when it
is clean too.  Whether clean or not, it leaves the other keys alone. -/
theorem routeCache_represents {cache : RouteCache} {map : RouteMap}
    (run : RouteRun (fun call cache => call.Clean cache) cache map) :
    cache.Represents map ∧
    ∀ call : RouteCall, (call.update map).Fits →
      ((call.run cache).Represents (call.update map) ↔ call.Clean cache) ∧
      ∀ key ≠ call.key, (call.run cache).find key = cache.find key :=
  ⟨run.represents, fun call fits =>
    ⟨call.represents_iff run.represents fits, fun _ other => call.find_run_of_ne other⟩⟩

/-! ## A duplicated route -/

section Sample

theorem RouteMap.Fits.of_two {map : RouteMap} {a b : FwdKey}
    (live : ∀ key, map key ≠ none → key = a ∨ key = b) : map.Fits := by
  intro keys unique all
  have sub : keys ⊆ [a, b] := fun key mem => by
    rcases live key (all key mem) with rfl | rfl
    · exact List.mem_cons_self
    · exact List.mem_cons_of_mem a List.mem_cons_self
  have two : keys.length ≤ 2 := (List.subperm_of_subset unique sub).length_le
  exact two.trans (by decide)

/-- What a call makes live has the key of the call. -/
theorem RouteCall.update_of_ne (call : RouteCall) (map : RouteMap) {key : FwdKey}
    (other : key ≠ call.key) : call.update map key = map key := by
  cases call with
  | install inLabel outLabel ifindex nextHop dest => exact Function.update_of_ne other _ _
  | remove inLabel dest => exact Function.update_of_ne other _ _

/-- Calls for two keys never exceed the capacity. -/
theorem RouteRun.calls {a b : FwdKey} {calls : List RouteCall}
    (two : ∀ call ∈ calls, call.key = a ∨ call.key = b) {cache : RouteCache} {map : RouteMap}
    (live : ∀ key, map key ≠ none → key = a ∨ key = b)
    (run : RouteRun (fun _ _ => True) cache map) :
    RouteRun (fun _ _ => True) (calls.foldl RouteCall.run cache)
      (calls.foldl RouteCall.update map) := by
  induction calls generalizing cache map with
  | nil => exact run
  | cons call calls ih =>
    have live' : ∀ key, call.update map key ≠ none → key = a ∨ key = b := by
      intro key here
      by_cases same : key = call.key
      · exact same ▸ two call List.mem_cons_self
      · exact live key (call.update_of_ne map same ▸ here)
    exact ih (fun call' mem => two call' (List.mem_cons_of_mem call mem)) live'
      (.call call run (.of_two live') trivial)

def firstInstall : RouteCall := .install 100 3 1 (some 0x0a000002) 0x0a000009

def secondInstall : RouteCall := .install 100 4 2 (some 0x0a000102) 0x0a000009

/-- The second install goes over the entry of the first. -/
theorem routeCache_represents_secondInstall :
    (secondInstall.run (firstInstall.run .init)).Represents
      (secondInstall.update (firstInstall.update fun _ => none)) := by
  have bare : ∀ n, ¬ FirstFit.Gap MplsRoute.key (.label 100) (List.replicate n .zero) := by
    intro n gap
    have mem := gap.mem_keys
    rw [keys_replicate_zero] at mem
    cases mem
  have fits : (firstInstall.update fun _ => none).Fits :=
    .of_two (a := .label 100) (b := .label 100) fun key live => by
      by_contra other
      exact live (firstInstall.update_of_ne _ fun same => other (.inl same))
  have fits' : (secondInstall.update (firstInstall.update fun _ => none)).Fits :=
    .of_two (a := .label 100) (b := .label 100) fun key live => by
      by_contra other
      have away : key ≠ .label 100 := fun same => other (.inl same)
      exact live ((secondInstall.update_of_ne _ away).trans (firstInstall.update_of_ne _ away))
  have clean : secondInstall.Clean (firstInstall.run .init) := by
    refine ⟨?_, fun none => by cases none⟩
    rintro (⟨free, -⟩ | later)
    · cases free
    · exact bare 4095 later
  have first : firstInstall.Clean .init := ⟨bare maxMplsRoutes, fun none => by cases none⟩
  exact ((routeCache_represents (.call firstInstall .init fits first)).2
    secondInstall fits').1.mpr clean

/-- Label 200 goes in behind label 100, and again after label 100 is out. -/
def holeCalls : List RouteCall :=
  [.install 100 3 1 (some 0x0a000002) 0x0a000009, .install 200 3 2 (some 0x0a000102) 0x0a000109,
    .remove 100 0x0a000009, .install 200 4 2 (some 0x0a000102) 0x0a000109]

theorem holeCalls_keys :
    ∃ rest, (holeCalls.foldl RouteCall.run .init).keys = .label 200 :: .label 200 :: rest :=
  ⟨_, rfl⟩

theorem exists_duplicated_route :
    ¬ ∀ cache map, RouteRun (fun _ _ => True) cache map → cache.keys.Nodup := by
  intro all
  have run : RouteRun (fun _ _ => True) (holeCalls.foldl RouteCall.run .init) _ :=
    .calls (a := .label 100) (b := .label 200) (by decide) (fun _ live => absurd rfl live) .init
  obtain ⟨rest, keys⟩ := holeCalls_keys
  have unique := all _ _ run
  rw [keys] at unique
  exact (List.nodup_cons.mp unique).1 List.mem_cons_self

/-- Label 200 is installed without next hop where label 100 had one. -/
def staleCalls : List RouteCall :=
  [.install 100 3 1 (some 0x0a000002) 0x0a000009, .remove 100 0x0a000009,
    .install 200 4 2 none 0x0a000109]

example : ((staleCalls.foldl RouteCall.run .init).find (.label 200)).map MplsRoute.nextHop =
    some 0x0a000002 :=
  rfl

end Sample

end Rsvp
