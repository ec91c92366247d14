import RustdResolved.Routing.Table

/-! # What the changes of the routing table report

A change that fails should leave the table as it is, and one that succeeds should say whether it has
changed anything. The setters take the link at their index, and as long as the kernel has not been
heard this makes an entry where there is none, before anything else is looked at.
`sync_kernel_links` records one link after another and stops at the first invalid one. -/

namespace RustdResolved.Routing.Mutations

open List Lib Result Maps Distinct Wire.Octets Resolver.Modes Table RoutingTable

variable {ifindex : Int} {kernel : KernelLinkState} {links : List KernelLinkState}
  {table : RoutingTable}

/-! ### The changes -/

inductive Setting
  | dns (servers : List SocketAddr)
  | domains (domains : List Domain)
  | defaultRoute (defaultRoute : Option Bool)
  | llmnr (mode : SupportMode)
  | multicastDns (mode : SupportMode)
  | dnsOverTls (mode : TlsMode)
  | dnssec (mode : ValidationMode)
  | dnssecNegativeTrustAnchors (anchors : List Text)

inductive Mutation
  | set (ifindex : Int) (setting : Setting)
  | syncKernelLinks (links : List KernelLinkState)
  | revert (ifindex : Int)

section
variable (table : RoutingTable)

def setterOf (ifindex : Int) : Setting → Change
  | .dns servers => table.setDns ifindex servers
  | .domains domains => table.setDomains ifindex domains
  | .defaultRoute defaultRoute => table.setDefaultRoute ifindex defaultRoute
  | .llmnr mode => table.setLlmnr ifindex mode
  | .multicastDns mode => table.setMulticastDns ifindex mode
  | .dnsOverTls mode => table.setDnsOverTls ifindex mode
  | .dnssec mode => table.setDnssec ifindex mode
  | .dnssecNegativeTrustAnchors anchors => table.setDnssecNegativeTrustAnchors ifindex anchors

def mutate : Mutation → Change
  | .set ifindex setting => setterOf table ifindex setting
  | .syncKernelLinks links => table.syncKernelLinks links
  | .revert ifindex => table.revert ifindex

/-- The same links, and the kernel has been heard in both or in none. -/
def Same (table' : RoutingTable) : Prop :=
  (∀ ifindex, table'.links.lookup ifindex = table.links.lookup ifindex) ∧
    table'.kernelSynchronized = table.kernelSynchronized

/-- Nothing has changed after a failure, and after a success what is said is right. -/
def Truthful : Change → Prop
  | (.error _, table') => Same table table'
  | (.ok changed, table') => changed = true ↔ ¬Same table table'

theorem Same.refl : Same table table := ⟨fun _ => rfl, rfl⟩

theorem lookup_put (link : LinkState) (ifindex : Int) :
    (table.put link).links.lookup ifindex =
      if ifindex = link.ifindex then some link else table.links.lookup ifindex := by
  split_ifs with h
  · rw [h]
    exact AList.lookup_insert _
  · exact AList.lookup_insert_ne h

end

/-- Putting a link changes nothing just if it is there. -/
theorem same_put_iff {link : LinkState} :
    Same table (table.put link) ↔ table.links.lookup link.ifindex = some link := by
  unfold Same
  simp only [lookup_put]
  constructor
  · intro h
    have hlink := h.1 link.ifindex
    rw [if_pos rfl] at hlink
    exact hlink.symm
  · intro h
    refine ⟨fun ifindex => ?_, rfl⟩
    split_ifs with heq
    · rw [heq, h]
    · rfl

/-! ### The setters -/

/-- What a setting does to a link. -/
def edit (ifindex : Int) : Setting → LinkState → Except LinkError LinkState
  | .dns servers, link =>
    .ok { link with
      dnsServers := pushAllNew [] (servers.map (normalizeServer ifindex))
      distinct := nodup_normalizedServers ifindex servers }
  | .domains domains, link => do
    let domains ← domains.mapM normalizeDomain
    .ok { link with domains := pushAllNew [] domains }
  | .defaultRoute defaultRoute, link => .ok { link with defaultRoute := defaultRoute }
  | .llmnr mode, link => .ok { link with llmnr := mode }
  | .multicastDns mode, link => .ok { link with multicastDns := mode }
  | .dnsOverTls mode, link => .ok { link with dnsOverTls := mode }
  | .dnssec mode, link => .ok { link with dnssec := mode }
  | .dnssecNegativeTrustAnchors anchors, link => do
    let anchors ← anchors.mapM normalizeName
    .ok { link with dnssecNegativeTrustAnchors := pushAllNew [] anchors }

theorem setterOf_eq (table : RoutingTable) (ifindex : Int) (setting : Setting) :
    setterOf table ifindex setting = table.update ifindex (edit ifindex setting) := by
  cases setting <;> rfl

theorem edit_ifindex {setting : Setting} {link changed : LinkState}
    (h : edit ifindex setting link = .ok changed) : changed.ifindex = link.ifindex := by
  cases setting with
  | domains _ | dnssecNegativeTrustAnchors _ =>
    obtain ⟨normalized, -, h⟩ := of_bind h
    cases h
    rfl
  | _ =>
    cases h
    rfl

/-- A setter makes an entry: its index is valid, there is no entry and the kernel has not been
heard. -/
def Fresh (table : RoutingTable) (ifindex : Int) : Prop :=
  0 < ifindex ∧ table.links.lookup ifindex = none ∧ table.kernelSynchronized = false

theorem linkMut_cases :
    (∃ error, table.linkMut ifindex = .error error ∧ ¬Fresh table ifindex) ∨
    (∃ link, table.linkMut ifindex = .ok link ∧ table.links.lookup ifindex = some link) ∨
    (table.linkMut ifindex = .ok (.new ifindex) ∧ Fresh table ifindex) := by
  unfold linkMut validateIfindex Fresh
  by_cases hvalid : ifindex ≤ 0
  · exact Or.inl
      ⟨.invalidIfindex ifindex, by rw [if_pos hvalid]; rfl, fun h => absurd h.1 (by omega)⟩
  rw [if_neg hvalid, ok_bind]
  cases hlookup : table.links.lookup ifindex with
  | some link => exact Or.inr (Or.inl ⟨link, rfl, rfl⟩)
  | none =>
    cases hsync : table.kernelSynchronized with
    | true => exact Or.inl ⟨.noSuchLink ifindex, rfl, fun h => by cases h.2.2⟩
    | false => exact Or.inr (Or.inr ⟨rfl, by omega, rfl, rfl⟩)

section
variable (table : RoutingTable)

/-- **A setter is truthful unless it makes an entry**: then its argument has to be valid and other
than what a new link has. -/
theorem truthful_update_iff (ifindex : Int) (setting : Setting) :
    Truthful table (table.update ifindex (edit ifindex setting)) ↔
      (Fresh table ifindex → ∃ changed, edit ifindex setting (.new ifindex) = .ok changed ∧
        changed ≠ .new ifindex) := by
  unfold update
  obtain ⟨error, heq, hfresh⟩ | ⟨link, heq, hlookup⟩ | ⟨heq, hfresh⟩ := linkMut_cases
  · rw [heq]
    exact iff_of_true (Same.refl table) (fun h => absurd h hfresh)
  · rw [heq]
    have hindex : link.ifindex = ifindex := table.keyed ifindex link hlookup
    refine iff_of_true ?_ fun h => by rw [h.2.1] at hlookup; cases hlookup
    dsimp only
    cases hedit : edit ifindex setting link with
    | error error => exact same_put_iff.mpr (by rw [hindex]; exact hlookup)
    | ok changed =>
      have hchanged : changed.ifindex = ifindex := (edit_ifindex hedit).trans hindex
      dsimp only [Truthful]
      rw [same_put_iff, hchanged, hlookup, decide_eq_true_eq, Option.some.injEq, ne_comm]
  · rw [heq]
    dsimp only
    cases hedit : edit ifindex setting (.new ifindex) with
    | error error =>
      refine iff_of_false ?_ fun h => ?_
      · intro hsame
        have hnone := same_put_iff.mp hsame
        rw [show (LinkState.new ifindex).ifindex = ifindex from rfl, hfresh.2.1] at hnone
        cases hnone
      · obtain ⟨changed, hok, -⟩ := h hfresh
        cases hok
    | ok changed =>
      have hchanged : changed.ifindex = ifindex := edit_ifindex hedit
      dsimp only [Truthful]
      rw [same_put_iff, hchanged, hfresh.2.1, decide_eq_true_eq]
      simp [hfresh]

/-- The argument is valid and other than what a new link has. -/
def SetsNew : Setting → Prop
  | .dns servers => servers ≠ []
  | .domains domains =>
    domains ≠ [] ∧ ∀ domain ∈ domains, ∃ normalized, normalizeDomain domain = .ok normalized
  | .defaultRoute defaultRoute => defaultRoute ≠ none
  | .llmnr mode => mode ≠ .yes
  | .multicastDns mode => mode ≠ .yes
  | .dnsOverTls mode => mode ≠ .no
  | .dnssec mode => mode ≠ .allowDowngrade
  | .dnssecNegativeTrustAnchors anchors =>
    anchors ≠ [] ∧ ∀ anchor ∈ anchors, ∃ normalized, normalizeName anchor = .ok normalized

theorem pushAllNew_nil_ne_nil_iff {α : Type} [DecidableEq α] {xs : List α} :
    pushAllNew [] xs ≠ [] ↔ xs ≠ [] := by
  simp only [ne_eq, eq_nil_iff_forall_not_mem, mem_pushAllNew, not_mem_nil, false_or]

/-- A list of arguments is valid as a whole, and not empty, if each is and it is not. -/
theorem mapM_pushAllNew_iff {α : Type} [DecidableEq α] {β : Type} (f : β → Except LinkError α)
    (xs : List β) : (∃ ys, xs.mapM f = .ok ys ∧ pushAllNew [] ys ≠ []) ↔
      xs ≠ [] ∧ ∀ x ∈ xs, ∃ y, f x = .ok y := by
  simp only [pushAllNew_nil_ne_nil_iff, ← exists_mapM_ok_iff]
  have hnil : ∀ ys, xs.mapM f = .ok ys → (ys ≠ [] ↔ xs ≠ []) := by
    intro ys hys
    rw [← length_pos_iff, ← length_pos_iff, length_of_mapM hys]
  constructor
  · rintro ⟨ys, hys, hne⟩
    exact ⟨(hnil ys hys).mp hne, ys, hys⟩
  · rintro ⟨hne, ys, hys⟩
    exact ⟨ys, hys, (hnil ys hys).mpr hne⟩

theorem edit_new_iff (ifindex : Int) (setting : Setting) :
    (∃ changed, edit ifindex setting (.new ifindex) = .ok changed ∧ changed ≠ .new ifindex) ↔
      SetsNew setting := by
  cases setting with
  | dns servers =>
    have hmap : servers.map (normalizeServer ifindex) ≠ [] ↔ servers ≠ [] := by simp
    simp only [edit, LinkState.new, SetsNew, Except.ok.injEq, exists_eq_left', ne_eq,
      LinkState.mk.injEq, true_and, and_true]
    rw [← ne_eq, pushAllNew_nil_ne_nil_iff, hmap, ne_eq]
  | domains _ | dnssecNegativeTrustAnchors _ =>
    rw [SetsNew, ← mapM_pushAllNew_iff]
    simp only [edit, bind_eq_ok, LinkState.new]
    constructor
    · rintro ⟨changed, ⟨normalized, hnormalized, hok⟩, hne⟩
      cases hok
      exact ⟨normalized, hnormalized, fun hnil => hne (by rw [hnil])⟩
    · rintro ⟨normalized, hnormalized, hne⟩
      exact ⟨_, ⟨normalized, hnormalized, rfl⟩, fun heq => hne (by injection heq)⟩
  | _ => simp [edit, LinkState.new, SetsNew]

/-! ### Recording what the kernel lists -/

/-- One round of the loop, for a valid index. -/
def recordOne (kernel : KernelLinkState) : RoutingTable :=
  table.put { table.kernelLink kernel.ifindex with kernel := some kernel }

/-- What the kernel says of a link is what is recorded. -/
def Recorded (kernel : KernelLinkState) : Prop :=
  ∃ link, table.links.lookup kernel.ifindex = some link ∧ link.kernel = some kernel

def lastOf (links : List KernelLinkState) (ifindex : Int) : Option KernelLinkState :=
  links.reverse.find? (·.ifindex == ifindex)

/-- The last that is said of each index is what is recorded. -/
def Settled (links : List KernelLinkState) : Prop :=
  ∀ ifindex kernel, lastOf links ifindex = some kernel → Recorded table kernel

end

/-- The entries before the first invalid index. -/
def beforeInvalid (links : List KernelLinkState) : List KernelLinkState :=
  links.takeWhile fun kernel => 0 < kernel.ifindex

theorem kernelLink_kernel_iff :
    (table.kernelLink kernel.ifindex).kernel = some kernel ↔ Recorded table kernel := by
  unfold kernelLink Recorded
  cases table.links.lookup kernel.ifindex with
  | none => simp [LinkState.new]
  | some link => simp

theorem Recorded.same (h : Recorded table kernel) : Same table (recordOne table kernel) := by
  obtain ⟨link, hlookup, hkernel⟩ := h
  have hlink : table.kernelLink kernel.ifindex = link := by
    rw [kernelLink, hlookup, Option.getD_some]
  unfold recordOne
  rw [same_put_iff, hlink, ← hkernel]
  exact (table.keyed _ _ hlookup).symm ▸ hlookup

theorem validateIfindex_pos (h : 0 < ifindex) : validateIfindex ifindex = .ok () :=
  if_neg (by omega)

theorem validateIfindex_nonpos (h : ¬0 < ifindex) :
    validateIfindex ifindex = .error (.invalidIfindex ifindex) := if_pos (by omega)

/-- **What the loop leaves**: the entries before the first invalid index are recorded. -/
theorem recordKernel_table :
    ∀ (links : List KernelLinkState) (table : RoutingTable) (changed : Bool),
    (table.recordKernel changed links).2 = (beforeInvalid links).foldl recordOne table
  | [], _, _ => rfl
  | kernel :: rest, table, changed => by
    unfold recordKernel beforeInvalid
    by_cases hvalid : 0 < kernel.ifindex
    · rw [validateIfindex_pos hvalid, List.takeWhile_cons_of_pos (by simpa using hvalid)]
      exact recordKernel_table rest _ _
    · rw [validateIfindex_nonpos hvalid, List.takeWhile_cons_of_neg (by simpa using hvalid)]
      rfl

theorem recordKernel_error :
    ∀ (links : List KernelLinkState) (table : RoutingTable) (changed : Bool),
    (∃ error, (table.recordKernel changed links).1 = .error error) ↔
      ∃ kernel ∈ links, ¬0 < kernel.ifindex
  | [], _, _ => by simp [recordKernel]
  | kernel :: rest, table, changed => by
    unfold recordKernel
    by_cases hvalid : 0 < kernel.ifindex
    · rw [validateIfindex_pos hvalid, recordKernel_error rest]
      simp [hvalid]
    · rw [validateIfindex_nonpos hvalid]
      exact iff_of_true ⟨_, rfl⟩ ⟨kernel, List.mem_cons_self, hvalid⟩

/-- The loop has changed nothing just if all that it was given was recorded. -/
theorem recordKernel_unchanged : ∀ (links : List KernelLinkState) (table : RoutingTable)
    (changed : Bool), (∀ kernel ∈ links, 0 < kernel.ifindex) →
    ∃ flag, (table.recordKernel changed links).1 = .ok flag ∧
      (flag = false ↔ changed = false ∧ ∀ kernel ∈ links, Recorded table kernel)
  | [], _, changed, _ => ⟨changed, rfl, by simp⟩
  | kernel :: rest, table, changed, hvalid => by
    obtain ⟨hkernel, hrest⟩ := forall_mem_cons.mp hvalid
    unfold recordKernel
    rw [validateIfindex_pos hkernel]
    obtain ⟨flag, hflag, hiff⟩ := recordKernel_unchanged rest (recordOne table kernel)
      (changed || decide ((table.kernelLink kernel.ifindex).kernel ≠ some kernel)) hrest
    refine ⟨flag, hflag, hiff.trans ?_⟩
    rw [forall_mem_cons, Bool.or_eq_false_iff, decide_eq_false_iff_not, not_not,
      kernelLink_kernel_iff, and_assoc]
    refine and_congr_right fun _ => and_congr_right fun hrecorded => ?_
    refine forall₂_congr fun other _ => by rw [Recorded, Recorded, hrecorded.same.1]

theorem lastOf_concat (links : List KernelLinkState) (kernel : KernelLinkState) (ifindex : Int) :
    lastOf (links ++ [kernel]) ifindex =
      if kernel.ifindex = ifindex then some kernel else lastOf links ifindex := by
  unfold lastOf
  rw [reverse_append, reverse_singleton, singleton_append, find?_cons]
  split_ifs with h
  · rw [beq_iff_eq.mpr h]
  · rw [beq_eq_false_iff_ne.mpr h]

theorem lastOf_ifindex (h : lastOf links ifindex = some kernel) : kernel.ifindex = ifindex := by
  simpa using find?_some h

/-- Where nothing is said of an index, it is not listed. -/
theorem lastOf_eq_none_iff :
    lastOf links ifindex = none ↔ links.any (·.ifindex == ifindex) = false := by
  simp [lastOf, find?_eq_none]

section
variable (table : RoutingTable)

section
variable (links : List KernelLinkState)

/-- **After the loop each index has the last that was said of it.** -/
theorem lookup_recorded (ifindex : Int) :
    (links.foldl recordOne table).links.lookup ifindex =
      match lastOf links ifindex with
      | some kernel => some { table.kernelLink ifindex with kernel := some kernel }
      | none => table.links.lookup ifindex := by
  induction links using reverseRecOn with
  | nil => rfl
  | append_singleton links kernel ih =>
    rw [foldl_append, foldl_cons, foldl_nil, lastOf_concat, recordOne, lookup_put]
    have hindex : ({ (links.foldl recordOne table).kernelLink kernel.ifindex with
        kernel := some kernel } : LinkState).ifindex = kernel.ifindex :=
      kernelLink_ifindex _ _
    by_cases heq : kernel.ifindex = ifindex
    · rw [if_pos (by rw [hindex]; exact heq.symm), if_pos heq, heq]
      congr 1
      unfold kernelLink
      rw [ih]
      cases lastOf links ifindex with
      | some last => rfl
      | none => rfl
    · rw [if_neg (by rw [hindex]; exact fun h => heq h.symm), if_neg heq, ih]

theorem recorded_synchronized :
    (links.foldl recordOne table).kernelSynchronized = table.kernelSynchronized := by
  induction links using reverseRecOn with
  | nil => rfl
  | append_singleton links kernel ih =>
    rw [foldl_append]
    exact ih

/-- The loop leaves the table as it was just if the last of each index is what was recorded. -/
theorem same_recorded_iff : Same table (links.foldl recordOne table) ↔ Settled table links := by
  constructor
  · intro hsame ifindex kernel hlast
    have hlookup := hsame.1 ifindex
    rw [lookup_recorded, hlast] at hlookup
    rw [← lastOf_ifindex hlast] at hlookup
    exact ⟨_, hlookup.symm, rfl⟩
  · intro hsettled
    refine ⟨fun ifindex => ?_, recorded_synchronized table links⟩
    rw [lookup_recorded]
    cases hlast : lastOf links ifindex with
    | none => rfl
    | some kernel =>
      obtain ⟨link, hlookup, hkernel⟩ := hsettled ifindex kernel hlast
      rw [lastOf_ifindex hlast] at hlookup
      dsimp only
      rw [kernelLink, hlookup, Option.getD_some, ← hkernel]

/-! ### Synchronizing -/

/-- Every link of the table is listed. -/
def AllListed : Prop :=
  ∀ ifindex link, table.links.lookup ifindex = some link → links.any (·.ifindex == ifindex) = true

/-- With an invalid index in the list, what comes before it is as recorded. Without one, if the
kernel has been heard and lists all links, an index is not listed with different states of which the
last is what was recorded, while everything else is as recorded. -/
def SyncsTruthfully : Prop :=
  ((∃ kernel ∈ links, ¬0 < kernel.ifindex) → Settled table (beforeInvalid links)) ∧
  ((∀ kernel ∈ links, 0 < kernel.ifindex) → table.kernelSynchronized = true →
    AllListed table links → Settled table links → ∀ kernel ∈ links, Recorded table kernel)

end

end

/-- Nothing is left out of the recorded links just if all links are listed, once the kernel has been
heard. -/
theorem retains_all_iff (hsync : table.kernelSynchronized = true) :
    (∀ ifindex link, (links.foldl recordOne table).links.lookup ifindex = some link →
      (links.foldl recordOne table).staysListed links ifindex link = true) ↔
      AllListed table links := by
  unfold staysListed AllListed
  rw [recorded_synchronized, hsync]
  simp only [Bool.not_true, Bool.and_false, Bool.or_false, lookup_recorded]
  refine forall_congr' fun ifindex => ?_
  cases hlast : lastOf links ifindex with
  | none => rfl
  | some kernel =>
    have hlisted : links.any (·.ifindex == ifindex) = true := by
      by_contra hnot
      rw [Bool.not_eq_true, ← lastOf_eq_none_iff, hlast] at hnot
      cases hnot
    exact iff_of_true (fun _ _ => hlisted) (fun _ _ => hlisted)

/-- After the kernel has been heard, synchronizing changes nothing just if all links are listed and
the last of each index is what was recorded. -/
theorem same_retained_iff (hsync : table.kernelSynchronized = true) :
    Same table ((links.foldl recordOne table).retainListed links) ↔
      AllListed table links ∧ Settled table links := by
  rw [← retains_all_iff hsync, ← same_recorded_iff]
  set recorded := links.foldl recordOne table with hrecorded
  have hretained : ∀ ifindex link, (recorded.retainListed links).links.lookup ifindex = some link ↔
      recorded.links.lookup ifindex = some link ∧ recorded.staysListed links ifindex link = true :=
    fun _ _ => lookup_retain
  have hall : (∀ ifindex link, recorded.links.lookup ifindex = some link →
      recorded.staysListed links ifindex link = true) →
      ∀ ifindex, (recorded.retainListed links).links.lookup ifindex =
        recorded.links.lookup ifindex := by
    intro hstay ifindex
    refine Option.ext fun link => ?_
    exact (hretained ifindex link).trans (and_iff_left_of_imp (hstay ifindex link))
  constructor
  · intro hsame
    have hstay : ∀ ifindex link, recorded.links.lookup ifindex = some link →
        recorded.staysListed links ifindex link = true := by
      intro ifindex link hlookup
      -- an index that is listed stays, and one that is not has what it had before
      by_cases hlisted : links.any (·.ifindex == ifindex) = true
      · rw [staysListed, hlisted, Bool.true_or]
      · rw [Bool.not_eq_true, ← lastOf_eq_none_iff] at hlisted
        have hbefore : table.links.lookup ifindex = some link := by
          rw [hrecorded, lookup_recorded, hlisted] at hlookup
          exact hlookup
        rw [← hsame.1 ifindex] at hbefore
        exact ((hretained ifindex link).mp hbefore).2
    refine ⟨hstay, fun ifindex => ?_, recorded_synchronized table links⟩
    rw [← hall hstay, hsame.1]
  · rintro ⟨hstay, hsame⟩
    refine ⟨fun ifindex => ?_, hsync.symm⟩
    rw [hall hstay, hsame.1]

theorem settled_of_recorded
    (h : ∀ kernel ∈ links, Recorded table kernel) : Settled table links := fun _ kernel hlast =>
  h kernel (mem_reverse.mp (mem_of_find?_eq_some hlast))

theorem beforeInvalid_of_valid (h : ∀ kernel ∈ links, 0 < kernel.ifindex) :
    beforeInvalid links = links :=
  takeWhile_eq_self_iff.mpr fun kernel hkernel => decide_eq_true (h kernel hkernel)

/-- Synchronizing fails at an invalid index, after what comes before it was recorded. -/
theorem syncKernelLinks_invalid (h : ∃ kernel ∈ links, ¬0 < kernel.ifindex) :
    ∃ error, table.syncKernelLinks links =
      (.error error, (beforeInvalid links).foldl recordOne table) := by
  obtain ⟨error, herror⟩ := (recordKernel_error links table (!table.kernelSynchronized)).mpr h
  refine ⟨error, ?_⟩
  unfold syncKernelLinks
  rw [← Prod.mk.eta (p := table.recordKernel (!table.kernelSynchronized) links), herror,
    recordKernel_table]

/-- Without an invalid index it succeeds, and it reports no change just if the kernel has been
heard, all that is listed is recorded and all links are listed. -/
theorem syncKernelLinks_valid (h : ∀ kernel ∈ links, 0 < kernel.ifindex) :
    ∃ changed, table.syncKernelLinks links =
        (.ok changed, (links.foldl recordOne table).retainListed links) ∧
      (changed = false ↔ table.kernelSynchronized = true ∧
        (∀ kernel ∈ links, Recorded table kernel) ∧ AllListed table links) := by
  obtain ⟨flag, hflag, hiff⟩ := recordKernel_unchanged links table (!table.kernelSynchronized) h
  have htable := recordKernel_table links table (!table.kernelSynchronized)
  rw [beforeInvalid_of_valid h] at htable
  refine ⟨flag || ((links.foldl recordOne table).retainListed links).links.keys.length !=
    (links.foldl recordOne table).links.keys.length, ?_, ?_⟩
  · unfold syncKernelLinks
    rw [← Prod.mk.eta (p := table.recordKernel (!table.kernelSynchronized) links), hflag, htable]
  · have hlength : ((links.foldl recordOne table).retainListed links).links.keys.length =
        (links.foldl recordOne table).links.keys.length ↔
        ∀ ifindex link, (links.foldl recordOne table).links.lookup ifindex = some link →
          (links.foldl recordOne table).staysListed links ifindex link = true :=
      length_keys_retain_eq_iff
    rw [Bool.or_eq_false_iff, hiff, bne_eq_false_iff_eq, hlength, Bool.not_eq_false', and_assoc]
    refine and_congr_right fun hsync => ?_
    rw [retains_all_iff hsync]

/-- **Synchronizing is truthful** under the condition, and only then. -/
theorem truthful_sync_iff :
    Truthful table (table.syncKernelLinks links) ↔ SyncsTruthfully table links := by
  unfold SyncsTruthfully
  by_cases hvalid : ∀ kernel ∈ links, 0 < kernel.ifindex
  · have hnone : ¬∃ kernel ∈ links, ¬0 < kernel.ifindex := by simpa using hvalid
    obtain ⟨changed, hsyncs, hchanged⟩ := syncKernelLinks_valid hvalid
    rw [hsyncs]
    dsimp only [Truthful]
    rw [← Bool.not_eq_false, not_iff_not, hchanged]
    by_cases hsync : table.kernelSynchronized = true
    · rw [same_retained_iff hsync]
      have hsettled := @settled_of_recorded links table
      tauto
    · refine iff_of_true (iff_of_false (fun h => hsync h.1) fun hsame => hsync hsame.2.symm)
        ⟨fun h => absurd h hnone, fun _ h => absurd h hsync⟩
  · have hinvalid : ∃ kernel ∈ links, ¬0 < kernel.ifindex := by
      simpa only [not_forall, exists_prop] using hvalid
    obtain ⟨error, hsyncs⟩ := syncKernelLinks_invalid hinvalid
    rw [hsyncs]
    dsimp only [Truthful]
    rw [same_recorded_iff]
    exact ⟨fun h => ⟨fun _ => h, fun hall => absurd hall hvalid⟩, fun h => h.1 hinvalid⟩

/-! ### All changes -/

theorem truthful_revert (table : RoutingTable) (ifindex : Int) :
    Truthful table (table.revert ifindex) := by
  unfold revert
  split
  · exact Same.refl table
  · exact Same.refl table
  · rename_i link _ hlookup
    dsimp only [Truthful]
    rw [same_put_iff, decide_eq_true_eq,
      show ({ LinkState.new ifindex with kernel := link.kernel } :
      LinkState).ifindex = ifindex from rfl, hlookup, Option.some.injEq]

/-- A setter has an entry or fails at once, or sets something valid and new; the list of the kernel
is taken as a whole; and reverting needs nothing. -/
def Reports (table : RoutingTable) : Mutation → Prop
  | .set ifindex setting => Fresh table ifindex → SetsNew setting
  | .syncKernelLinks links => SyncsTruthfully table links
  | .revert _ => True

/-- **A change fails without a trace and reports what it did** just under the condition. -/
theorem mutations_truthful (table : RoutingTable) (mutation : Mutation) :
    Truthful table (mutate table mutation) ↔ Reports table mutation := by
  cases mutation with
  | set ifindex setting =>
    show Truthful table (setterOf table ifindex setting) ↔ (Fresh table ifindex → SetsNew setting)
    rw [setterOf_eq, truthful_update_iff, edit_new_iff]
  | syncKernelLinks links => exact truthful_sync_iff
  | revert ifindex => exact iff_of_true (truthful_revert table ifindex) trivial

def kernelAt (ifindex : Int) : KernelLinkState :=
  ⟨ifindex, "test".toList, 0x10041, 1500, 0, true, false, false, true⟩

/-- Setting no servers makes an entry and reports no change, an invalid domain makes an entry and
fails, and a list with an invalid index fails after the link before it was recorded. -/
theorem unreported_entries :
    (∃ table, mutate .empty (.set 1 (.dns [])) = (.ok false, table) ∧
      table.links.lookup 1 = some (.new 1)) ∧
    (∃ table, mutate .empty (.set 1 (.domains [⟨"a..b".toList, false⟩])) =
      (.error (.invalidDomain "a..b".toList), table) ∧ table.links.lookup 1 = some (.new 1)) ∧
    (∃ table, mutate .empty (.syncKernelLinks [kernelAt 1, kernelAt 0]) =
      (.error (.invalidIfindex 0), table) ∧
      table.links.lookup 1 = some { LinkState.new 1 with kernel := some (kernelAt 1) }) := by
  refine ⟨⟨_, rfl, ?_⟩, ⟨_, rfl, ?_⟩, ⟨_, rfl, ?_⟩⟩ <;> decide

end RustdResolved.Routing.Mutations
