import CallChart.Proofs.Expansion
import Mathlib.Data.List.Lex
import Mathlib.Data.List.NodupEquivFin
import Mathlib.Order.Fin.Basic
import Mathlib.Order.Hom.Set

/-!
# The calls of a listing are chains of call sites

Each call of a listing is there because of the calls above it. The positions
of these calls, each in the list of the body it stands in, say where the call
stands: `CallGraph.chainAt?` reads positions from an entry body downwards and
answers the functions gone through and the function called last.

**The law** (`calls_enumerate_chains`): the calls of a function are the
chains whose functions all differ, each chain once, in the order of their
positions, a chain before those that go on from it.

`CallGraph.sites` lists calls together with their positions. That it lists
the right calls, in order, each chain once, are three lemmas
(`map_call_sites`, `pairwise_sites`, `mem_sites`), and the law puts them
together.
-/

namespace CallChart

/-! ## Chains -/

/-- A chain of calls: the functions gone through and the function called last. The entry function,
where it starts, is not among them. -/
structure Chain where
  above : List FunctionKey
  last : FunctionKey
  deriving DecidableEq, Repr

namespace Chain

/-- The chain that goes through one more function first. -/
def under (key : FunctionKey) (chain : Chain) : Chain := { chain with above := key :: chain.above }

/-- The last call of a chain that starts in a module: it is made from the module of the function
gone through last, if there is one. -/
def callFrom (caller : String) (chain : Chain) : Call :=
  chain.last.calledBy ((chain.above.map FunctionKey.owner).getLast?.getD caller)

/-- A chain goes on from a function as it does from that function's module. -/
@[simp] theorem callFrom_under (caller : String) (key : FunctionKey) (chain : Chain) :
    (chain.under key).callFrom caller = chain.callFrom key.owner := by
  simp only [callFrom, under, List.map_cons, List.getLast?_cons, Option.getD_some]

/-- The functions gone through differ from each other and from the entry function, and are no more
than the limit. The function called last is free: its call is listed even where its body is not gone
into. -/
structure Admissible (entry : FunctionKey) (limit : Option Nat) (chain : Chain) : Prop where
  distinct : chain.above.Nodup
  apart : entry ∉ chain.above
  within : ∀ n ∈ limit, chain.above.length ≤ n

/-- A chain that may be gone through below some ancestors, at a depth. A chain that goes through no
function is free at any depth, since the limit is on bodies that are gone into and not on calls. -/
structure Free (ancestors : Finset FunctionKey) (limit : Option Nat) (depth : Nat)
    (chain : Chain) : Prop where
  distinct : chain.above.Nodup
  apart : ∀ key ∈ chain.above, key ∉ ancestors
  within : ∀ n ∈ limit, chain.above ≠ [] → depth + chain.above.length ≤ n

/-- Below the entry function alone, the chains that may be gone through are the admissible ones. -/
theorem free_singleton_iff {entry : FunctionKey} {limit : Option Nat} {chain : Chain} :
    chain.Free {entry} limit 0 ↔ chain.Admissible entry limit := by
  constructor
  · rintro ⟨distinct, apart, within⟩
    refine ⟨distinct, fun mem => apart entry mem (Finset.mem_singleton_self entry), ?_⟩
    intro n hn
    by_cases none_above : chain.above = []
    · rw [none_above]
      exact Nat.zero_le n
    · have := within n hn none_above
      omega
  · rintro ⟨distinct, apart, within⟩
    refine ⟨distinct, fun key mem mem' => ?_, fun n hn _ => ?_⟩
    · exact apart (Finset.mem_singleton.mp mem' ▸ mem)
    · have := within n hn
      omega

/-- A chain that calls at once may be gone through anywhere. -/
theorem free_nil (ancestors : Finset FunctionKey) (limit : Option Nat) (depth : Nat)
    (last : FunctionKey) : (⟨[], last⟩ : Chain).Free ancestors limit depth :=
  ⟨List.nodup_nil, fun _ mem => (nomatch mem), fun _ _ ne => absurd rfl ne⟩

/-- Going through a function first needs that it may be entered, and that the rest may be gone
through inside it. -/
theorem free_under_iff {ancestors : Finset FunctionKey} {limit : Option Nat} {depth : Nat}
    {key : FunctionKey} {chain : Chain} :
    (chain.under key).Free ancestors limit depth ↔
      (key ∉ ancestors ∧ limit.all (depth < ·) = true) ∧
        chain.Free (insert key ancestors) limit (depth + 1) := by
  have below : limit.all (depth < ·) = true ↔ ∀ n ∈ limit, depth < n := by
    simp only [Option.all_eq_true, decide_eq_true_eq, Option.mem_def]
  rw [below]
  constructor
  · rintro ⟨distinct, apart, within⟩
    obtain ⟨fresh, distinct⟩ := List.nodup_cons.mp distinct
    have room : ∀ n ∈ limit, depth + (chain.above.length + 1) ≤ n :=
      fun n hn => within n hn (List.cons_ne_nil _ _)
    refine ⟨⟨apart key List.mem_cons_self, fun n hn => ?_⟩, distinct, fun other mem => ?_,
      fun n hn _ => ?_⟩
    · have := room n hn
      omega
    · rw [Finset.mem_insert, not_or]
      exact ⟨fun same => fresh (same ▸ mem), apart other (List.mem_cons_of_mem _ mem)⟩
    · have := room n hn
      omega
  · rintro ⟨⟨fresh, room⟩, distinct, apart, within⟩
    refine ⟨List.nodup_cons.mpr ⟨fun mem => ?_, distinct⟩, fun other mem => ?_, fun n hn _ => ?_⟩
    · exact apart key mem (Finset.mem_insert_self _ _)
    · rcases List.mem_cons.mp mem with rfl | mem
      · exact fresh
      · exact fun mem' => apart other mem (Finset.mem_insert_of_mem mem')
    · show depth + (chain.above.length + 1) ≤ n
      by_cases none_above : chain.above = []
      · have := room n hn
        rw [none_above]
        exact this
      · have := within n hn none_above
        omega

end Chain

namespace CallGraph

variable (g : CallGraph) (limit : Option Nat)

/-- The chain at positions: the first one is a position among `callees`, and each next one a
position in the body of the function called at the one before. -/
def chainAt? : List FunctionKey → List Nat → Option Chain
  | _, [] => none
  | callees, [p] => callees[p]?.map fun key => ⟨[], key⟩
  | callees, p :: q :: ps =>
    callees[p]?.bind fun key =>
      (g.callees? key).bind fun next => (chainAt? next (q :: ps)).map (Chain.under key)

variable {g} {callees : List FunctionKey}

/-- One position leads to the call that stands there. -/
theorem chainAt?_singleton_iff {p : Nat} {chain : Chain} :
    g.chainAt? callees [p] = some chain ↔
      ∃ key, callees[p]? = some key ∧ chain = ⟨[], key⟩ := by
  simp only [chainAt?, Option.map_eq_some_iff]
  exact exists_congr fun key => and_congr_right fun _ => eq_comm

/-- More positions lead on in the body of the function called at the first. -/
theorem chainAt?_cons_iff {p : Nat} {ps : List Nat} (more : ps ≠ []) {chain : Chain} :
    g.chainAt? callees (p :: ps) = some chain ↔
      ∃ key next rest, callees[p]? = some key ∧ g.callees? key = some next ∧
        g.chainAt? next ps = some rest ∧ chain = rest.under key := by
  cases ps with
  | nil => exact absurd rfl more
  | cons q qs =>
    simp only [chainAt?, Option.bind_eq_some_iff, Option.map_eq_some_iff]
    constructor
    · rintro ⟨key, hkey, next, hnext, rest, hrest, rfl⟩
      exact ⟨key, next, rest, hkey, hnext, hrest, rfl⟩
    · rintro ⟨key, next, rest, hkey, hnext, hrest, rfl⟩
      exact ⟨key, hkey, next, hnext, rest, hrest, rfl⟩

/-- No position leads nowhere. -/
theorem ne_nil_of_chainAt? {ps : List Nat} {chain : Chain}
    (found : g.chainAt? callees ps = some chain) : ps ≠ [] := by
  rintro rfl
  cases found

/-! ## Calls with their positions -/

/-- A call of a listing and the positions of the calls that lead to it, its own last. The same call
may be listed many times; its positions tell where. -/
structure Site where
  positions : List Nat
  call : Call

def Site.below (p : Nat) (site : Site) : Site := { site with positions := p :: site.positions }

variable (g)

/-- What is listed after the call of a function, with positions from its body downwards. -/
def sitesBelow (ancestors : Finset FunctionKey) (depth : Nat) (key : FunctionKey) : List Site :=
  match found : g.callees? key with
  | none => []
  | some callees =>
    if fresh : key ∉ ancestors ∧ limit.all (depth < ·) then
      callees.zipIdx.flatMap fun callee =>
        ⟨[callee.2], callee.1.calledBy key.owner⟩ ::
          (sitesBelow (insert key ancestors) (depth + 1) callee.1).map (Site.below callee.2)
    else []
termination_by g.remaining ancestors
decreasing_by exact remaining_insert_lt (mem_keys_of_callees? found) fresh.1

/-- The calls made from a module, each followed by what is listed after it. -/
def sites (ancestors : Finset FunctionKey) (depth : Nat) (caller : String)
    (callees : List FunctionKey) : List Site :=
  callees.zipIdx.flatMap fun callee =>
    ⟨[callee.2], callee.1.calledBy caller⟩ ::
      (g.sitesBelow limit ancestors depth callee.1).map (Site.below callee.2)

variable {g limit} {ancestors : Finset FunctionKey} {depth : Nat} {caller : String}
  {key : FunctionKey}

/-- Nothing is listed after the call of a function without a body. -/
theorem sitesBelow_of_none (found : g.callees? key = none) :
    g.sitesBelow limit ancestors depth key = [] := by
  unfold sitesBelow
  split
  · rfl
  · rename_i found'
    rw [found] at found'
    cases found'

/-- After the call of a function with a body comes the body, where it may be entered. -/
theorem sitesBelow_of_some (found : g.callees? key = some callees) :
    g.sitesBelow limit ancestors depth key =
      if key ∉ ancestors ∧ limit.all (depth < ·) then
        g.sites limit (insert key ancestors) (depth + 1) key.owner callees
      else [] := by
  rw [sitesBelow]
  split
  · rename_i found'
    rw [found] at found'
    cases found'
  · rename_i found'
    obtain rfl := Option.some.inj (found.symm.trans found')
    rfl

/-! ## The calls of the sites -/

/-- The calls of the sites are those of the listing, if so they are after each call. -/
theorem map_call_sites_of
    (below : ∀ key, (g.sitesBelow limit ancestors depth key).map Site.call =
      g.expansion limit ancestors depth key) :
    (g.sites limit ancestors depth caller callees).map Site.call =
      g.listing limit ancestors depth caller callees := by
  have calls : ∀ callee : FunctionKey × Nat,
      (⟨[callee.2], callee.1.calledBy caller⟩ ::
        (g.sitesBelow limit ancestors depth callee.1).map (Site.below callee.2)).map Site.call =
      callee.1.calledBy caller :: g.expansion limit ancestors depth callee.1 := by
    intro callee
    rw [List.map_cons, List.map_map, ← below]
    rfl
  rw [sites, List.map_flatMap]
  simp only [calls]
  rw [listing]
  conv_rhs => rw [← List.zipIdx_map_fst 0 callees, List.flatMap_map]

theorem map_call_sitesBelow (key : FunctionKey) :
    (g.sitesBelow limit ancestors depth key).map Site.call =
      g.expansion limit ancestors depth key := by
  induction ancestors using g.ancestors_induction generalizing depth key with
  | inside ancestors ih =>
    cases found : g.callees? key with
    | none => rw [sitesBelow_of_none found, expansion_of_none found]; rfl
    | some callees =>
      rw [sitesBelow_of_some found, expansion_of_some found]
      split
      case isTrue fresh =>
        exact map_call_sites_of (ih key (mem_keys_of_callees? found) fresh.1)
      case isFalse => rfl

/-- **The sites have the calls of the listing**, in their order. -/
theorem map_call_sites :
    (g.sites limit ancestors depth caller callees).map Site.call =
      g.listing limit ancestors depth caller callees :=
  map_call_sites_of map_call_sitesBelow

/-! ## Which chains have a site -/

/-- A site is one of the calls, or comes after one of them. -/
theorem mem_sites_cases {site : Site} :
    site ∈ g.sites limit ancestors depth caller callees ↔
      ∃ p key, callees[p]? = some key ∧
        (site = ⟨[p], key.calledBy caller⟩ ∨
          ∃ inner ∈ g.sitesBelow limit ancestors depth key, site = inner.below p) := by
  simp only [sites, List.mem_flatMap, List.mem_cons, List.mem_map, Prod.exists,
    List.mk_mem_zipIdx_iff_getElem?]
  rw [exists_comm]
  simp only [eq_comm]

/-- What comes after the call of a function are the sites in its body, where it may be entered. -/
theorem mem_sitesBelow_iff {site : Site} :
    site ∈ g.sitesBelow limit ancestors depth key ↔
      ∃ callees, g.callees? key = some callees ∧
        (key ∉ ancestors ∧ limit.all (depth < ·) = true) ∧
        site ∈ g.sites limit (insert key ancestors) (depth + 1) key.owner callees := by
  cases found : g.callees? key with
  | none =>
    rw [sitesBelow_of_none found]
    simp
  | some callees =>
    rw [sitesBelow_of_some found]
    by_cases fresh : key ∉ ancestors ∧ limit.all (depth < ·) = true
    · rw [if_pos fresh]
      simp [fresh]
    · rw [if_neg fresh]
      simp only [List.not_mem_nil, false_iff]
      rintro ⟨_, _, fresh', _⟩
      exact fresh fresh'

/-- A site has a position. -/
theorem positions_ne_nil {site : Site}
    (mem : site ∈ g.sites limit ancestors depth caller callees) : site.positions ≠ [] := by
  obtain ⟨p, key, _, rfl | ⟨inner, _, rfl⟩⟩ := mem_sites_cases.mp mem
  · exact List.cons_ne_nil _ _
  · exact List.cons_ne_nil _ _

/-- **A chain has a site when it may be gone through**, and the site has the chain's last call. -/
theorem mem_sites (ps : List Nat) (call : Call) :
    ⟨ps, call⟩ ∈ g.sites limit ancestors depth caller callees ↔
      ∃ chain, g.chainAt? callees ps = some chain ∧ chain.Free ancestors limit depth ∧
        call = chain.callFrom caller := by
  induction ps generalizing ancestors depth caller callees with
  | nil =>
    constructor
    · exact fun mem => absurd rfl (positions_ne_nil mem)
    · rintro ⟨chain, found, _⟩
      exact absurd rfl (ne_nil_of_chainAt? found)
  | cons p ps ih =>
    rw [mem_sites_cases]
    constructor
    · rintro ⟨q, key, hkey, same | ⟨inner, mem, same⟩⟩
      · obtain ⟨hp, rfl⟩ := Site.mk.inj same
        obtain ⟨rfl, rfl⟩ := List.cons.inj hp
        exact ⟨⟨[], key⟩, chainAt?_singleton_iff.mpr ⟨key, hkey, rfl⟩,
          Chain.free_nil _ _ _ key, rfl⟩
      · obtain ⟨hp, rfl⟩ := Site.mk.inj same
        obtain ⟨rfl, rfl⟩ := List.cons.inj hp
        obtain ⟨next, hnext, fresh, mem⟩ := mem_sitesBelow_iff.mp mem
        obtain ⟨chain, hchain, free, hcall⟩ := ih.mp mem
        refine ⟨chain.under key, ?_, Chain.free_under_iff.mpr ⟨fresh, free⟩, ?_⟩
        · exact (chainAt?_cons_iff (positions_ne_nil mem)).mpr
            ⟨key, next, chain, hkey, hnext, hchain, rfl⟩
        · rw [Chain.callFrom_under]
          exact hcall
    · rintro ⟨chain, found, free, rfl⟩
      by_cases more : ps = []
      · subst more
        obtain ⟨key, hkey, rfl⟩ := chainAt?_singleton_iff.mp found
        exact ⟨p, key, hkey, .inl rfl⟩
      · obtain ⟨key, next, rest, hkey, hnext, hrest, rfl⟩ := (chainAt?_cons_iff more).mp found
        obtain ⟨fresh, free⟩ := Chain.free_under_iff.mp free
        have mem := ih.mpr ⟨rest, hrest, free, Chain.callFrom_under caller key rest⟩
        exact ⟨p, key, hkey, .inr ⟨_, mem_sitesBelow_iff.mpr ⟨next, hnext, fresh, mem⟩, rfl⟩⟩

/-- Below the entry function alone, the chains that have a site are the admissible ones. -/
theorem mem_sites_entry {entry : FunctionKey} {ps : List Nat} {call : Call} :
    ⟨ps, call⟩ ∈ g.sites limit {entry} 0 caller callees ↔
      ∃ chain, g.chainAt? callees ps = some chain ∧ chain.Admissible entry limit ∧
        call = chain.callFrom caller := by
  simp only [mem_sites, Chain.free_singleton_iff]

/-! ## The order of the sites -/

/-- A call stands before what is listed after it. -/
theorem positions_lt_below {p : Nat} {inner : Site}
    (mem : inner ∈ g.sitesBelow limit ancestors depth key) :
    [p] < (inner.below p).positions := by
  obtain ⟨_, _, _, mem⟩ := mem_sitesBelow_iff.mp mem
  obtain ⟨q, qs, hq⟩ := List.exists_cons_of_ne_nil (positions_ne_nil mem)
  rw [Site.below, hq, List.cons_lt_cons_self]
  exact List.nil_lt_cons q qs

/-- The sites are in order, if those after each call are. -/
theorem pairwise_sites_of
    (below : ∀ key, (g.sitesBelow limit ancestors depth key).Pairwise
      (·.positions < ·.positions)) :
    (g.sites limit ancestors depth caller callees).Pairwise (·.positions < ·.positions) := by
  refine List.pairwise_flatMap.mpr ⟨fun callee _ => ?_, ?_⟩
  · refine List.pairwise_cons.mpr ⟨fun site mem => ?_, ?_⟩
    · obtain ⟨inner, inside, rfl⟩ := List.mem_map.mp mem
      exact positions_lt_below inside
    · refine List.pairwise_map.mpr ((below callee.1).imp fun before => ?_)
      exact List.cons_lt_cons_self.mpr before
  · -- the blocks of two calls of a body differ in their first position
    have first : ∀ (callee : FunctionKey × Nat) (site : Site),
        site ∈ ⟨[callee.2], callee.1.calledBy caller⟩ ::
          (g.sitesBelow limit ancestors depth callee.1).map (Site.below callee.2) →
        ∃ ps, site.positions = callee.2 :: ps := by
      intro callee site mem
      rcases List.mem_cons.mp mem with rfl | mem
      · exact ⟨[], rfl⟩
      · obtain ⟨inner, _, rfl⟩ := List.mem_map.mp mem
        exact ⟨inner.positions, rfl⟩
    have ordered : callees.zipIdx.Pairwise (·.2 < ·.2) := by
      rw [← List.pairwise_map, List.zipIdx_map_snd]
      exact List.pairwise_lt_range'
    refine ordered.imp fun before site mem site' mem' => ?_
    obtain ⟨ps, hps⟩ := first _ site mem
    obtain ⟨ps', hps'⟩ := first _ site' mem'
    rw [hps, hps']
    exact List.cons_lt_cons_iff.mpr (.inl before)

theorem pairwise_sitesBelow (key : FunctionKey) :
    (g.sitesBelow limit ancestors depth key).Pairwise (·.positions < ·.positions) := by
  induction ancestors using g.ancestors_induction generalizing depth key with
  | inside ancestors ih =>
    cases found : g.callees? key with
    | none => rw [sitesBelow_of_none found]; exact .nil
    | some callees =>
      rw [sitesBelow_of_some found]
      split
      case isTrue fresh =>
        exact pairwise_sites_of (ih key (mem_keys_of_callees? found) fresh.1)
      case isFalse => exact .nil

/-- **The sites are in the order of their positions**, and so no two are at the same. -/
theorem pairwise_sites :
    (g.sites limit ancestors depth caller callees).Pairwise (·.positions < ·.positions) :=
  pairwise_sites_of pairwise_sitesBelow

/-! ## The law -/

variable (g limit)

/-- The positions of the admissible chains from a body. -/
def admissiblePositions (entry : FunctionKey) (callees : List FunctionKey) : Set (List Nat) :=
  {ps | ∃ chain, g.chainAt? callees ps = some chain ∧ chain.Admissible entry limit}

variable {g limit}

/-- The positions of the sites below the entry function alone are those of the admissible chains. -/
theorem mem_map_positions_sites {entry : FunctionKey} {ps : List Nat} :
    ps ∈ (g.sites limit {entry} 0 caller callees).map Site.positions ↔
      ps ∈ g.admissiblePositions limit entry callees := by
  constructor
  · intro mem
    obtain ⟨site, inside, rfl⟩ := List.mem_map.mp mem
    obtain ⟨chain, found, admissible, _⟩ := mem_sites_entry.mp inside
    exact ⟨chain, found, admissible⟩
  · rintro ⟨chain, found, admissible⟩
    have mem : ⟨ps, chain.callFrom caller⟩ ∈ g.sites limit {entry} 0 caller callees :=
      mem_sites_entry.mpr ⟨chain, found, admissible, rfl⟩
    exact List.mem_map.mpr ⟨_, mem, rfl⟩

/-- The sites below the entry function alone match the admissible chains, in order. -/
theorem exists_orderIso_sites (entry : FunctionKey) (caller : String) (callees : List FunctionKey) :
    ∃ e : Fin (g.sites limit {entry} 0 caller callees).length ≃o
        g.admissiblePositions limit entry callees,
      ∀ i, (g.chainAt? callees (e i)).map (Chain.callFrom caller) =
        some ((g.sites limit {entry} 0 caller callees).get i).call := by
  have sorted : ((g.sites limit {entry} 0 caller callees).map Site.positions).SortedLT :=
    (List.pairwise_map.mpr pairwise_sites).sortedLT
  have same : {ps | ps ∈ (g.sites limit {entry} 0 caller callees).map Site.positions} =
      g.admissiblePositions limit entry callees :=
    Set.ext fun _ => mem_map_positions_sites
  refine ⟨(Fin.castOrderIso (List.length_map _).symm).trans
    ((sorted.getIso _).trans (OrderIso.setCongr _ _ same)), fun i => ?_⟩
  obtain ⟨chain, found, _, hcall⟩ := (mem_sites _ _).mp (List.get_mem _ i)
  have position : ((g.sites limit {entry} 0 caller callees).map Site.positions).get
      (i.cast (List.length_map _).symm) =
        ((g.sites limit {entry} 0 caller callees).get i).positions := by
    rw [List.get_eq_getElem, List.getElem_map]
    rfl
  show (g.chainAt? callees (((g.sites limit {entry} 0 caller callees).map Site.positions).get
    (i.cast (List.length_map _).symm))).map _ = _
  rw [position, found, hcall]
  rfl

/-- The calls listed below the entry function alone match the admissible chains, in order. -/
theorem exists_orderIso_listing (entry : FunctionKey) (caller : String)
    (callees : List FunctionKey) :
    ∃ e : Fin (g.listing limit {entry} 0 caller callees).length ≃o
        g.admissiblePositions limit entry callees,
      ∀ i, (g.chainAt? callees (e i)).map (Chain.callFrom caller) =
        some ((g.listing limit {entry} 0 caller callees).get i) := by
  obtain ⟨e, he⟩ := exists_orderIso_sites entry caller callees
  rw [← map_call_sites]
  refine ⟨(Fin.castOrderIso (List.length_map _)).trans e, fun i => ?_⟩
  rw [List.get_eq_getElem, List.getElem_map]
  exact he (i.cast (List.length_map _))

end CallGraph

/-- **The calls of a function are the admissible chains of calls from it**, each once, in the order
of their positions: chains are compared at the first position where they part, and a chain comes
before those that go on from it. The call of a chain is its last one, made from the module of the
function gone through last, or from the entry module if the chain calls at once. -/
theorem calls_enumerate_chains (index : Index) (options : TraceOptions) {unit : SourceUnit}
    {function : String} {owner : ModuleOutline} {definition : Definition}
    (found : unit.definition? function = some (owner, definition)) :
    let g := index.callGraph options.withArguments
    let callees := definition.body.visibleCalls options.withArguments
    let calls := (Trace.ofUnit index options unit function).calls
    ∃ e : Fin calls.length ≃o
        g.admissiblePositions options.depthLimit ⟨owner.name, function⟩ callees,
      ∀ i, (g.chainAt? callees (e i)).map (Chain.callFrom owner.name) = some (calls.get i) := by
  intro g callees calls
  have hcalls : calls = _ := Trace.calls_ofUnit_of_some index options found
  rw [hcalls]
  exact CallGraph.exists_orderIso_listing ⟨owner.name, function⟩ owner.name callees

/-- A function called twice is listed with what it calls each time, but its call of the entry
function is not gone into. -/
theorem calls_enumerate_chains_repeated :
    let run : Definition := ⟨"run", .block [.remoteCall "B" "once" [], .remoteCall "B" "once" []]⟩
    let a : ModuleOutline := ⟨"A", [run]⟩
    let b : ModuleOutline :=
      ⟨"B", [⟨"once", .both (.remoteCall "C" "leaf" []) (.remoteCall "A" "run" [])⟩]⟩
    let unit : SourceUnit := ⟨⟨"a.ex"⟩, [a]⟩
    let index := (Index.empty.addUnit unit).addUnit ⟨⟨"b.ex"⟩, [b]⟩
    let calls := (Trace.ofUnit index {} unit "run").calls
    unit.definition? "run" = some (a, run) ∧
    calls = [⟨"A", "B", "once"⟩, ⟨"B", "C", "leaf"⟩, ⟨"B", "A", "run"⟩,
      ⟨"A", "B", "once"⟩, ⟨"B", "C", "leaf"⟩, ⟨"B", "A", "run"⟩] ∧
    ∃ e : Fin calls.length ≃o (index.callGraph false).admissiblePositions none ⟨"A", "run"⟩
        [⟨"B", "once"⟩, ⟨"B", "once"⟩],
      ∀ i, ((index.callGraph false).chainAt? [⟨"B", "once"⟩, ⟨"B", "once"⟩] (e i)).map
        (Chain.callFrom "A") = some (calls.get i) := by
  intro run a b unit index calls
  have found : unit.definition? "run" = some (a, run) := rfl
  exact ⟨found, by decide, calls_enumerate_chains index {} found⟩

end CallChart
