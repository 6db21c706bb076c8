import NomadiCore.ViewEvents

/-!
# Loading the modal of a shop

`openModalByUuid` of `_open-modal.blade.php` asks the server for the modal of a
shop unless the page already has it, and appends the answer to the page.  The
request and its answer are under way while the page may be clicked again, on
this page and on others, and each request that the server answers is one view
in the statistics of the shop.
-/

namespace NomadiCore.ModalLoading

open NomadiCore.Library.Calendar
open NomadiCore.Library.LabelledRun
open NomadiCore.TagPage
open NomadiCore.ViewEvents

/-! ## Pages and their requests -/

/--
A page in a browser, with the requests it waits for.  A request fails when the
server has stored the view and then cannot render the modal.
-/
structure Page where
  requests : List (String × String)
  responses : List String
  modals : List String
  failures : List String

/-- A page that was just loaded. -/
def Page.fresh : Page := ⟨[], [], [], []⟩

structure Site where
  world : World
  pages : List Page

/-- `openModalByUuid`; a modal that is there is only shown. -/
def openModalByUuid (page : Page) (id mode : String) : Page :=
  if id ∈ page.modals then page
  else { page with requests := page.requests ++ [(id, mode)] }

/-- The callback of `$.get`. -/
def appendModal (page : Page) (id : String) : Page :=
  { page with
    responses := page.responses.erase id
    modals := page.modals ++ [id] }

inductive Event where
  | click (page : Nat) (id mode : String)
  | serve (page : Nat) (id mode : String) (today : Date)
      (rendered : Bool)
  | arrive (page : Nat) (id : String)
  | search (query : Input) (today : Date)
  | other (database : Database)

/--
The server takes a request: it answers with the modal, or fails before or
after it has stored the view, in which case the callback is never called.
-/
def serve (site : Site) (index : Nat) (page : Page)
    (id mode : String) (today : Date) (rendered : Bool) : Site :=
  let taken := { page with requests := page.requests.erase (id, mode) }
  match ViewEvents.step site.world (.modal id (.text mode) today) with
  | some world =>
      ⟨world, site.pages.set index
        (if rendered then { taken with responses := page.responses ++ [id] }
        else { taken with failures := page.failures ++ [id] })⟩
  | none => ⟨site.world, site.pages.set index taken⟩

def step (site : Site) : Event → Option Site
  | .click index id mode => do
      let page ← site.pages[index]?
      return { site with
        pages := site.pages.set index (openModalByUuid page id mode) }
  | .serve index id mode today rendered => do
      let page ← site.pages[index]?
      if (id, mode) ∈ page.requests then
        return serve site index page id mode today rendered
      else none
  | .arrive index id => do
      let page ← site.pages[index]?
      if id ∈ page.responses then
        return { site with
          pages := site.pages.set index (appendModal page id) }
      else none
  | .search query today => do
      let world ← ViewEvents.step site.world (.search query today)
      return { site with world := world }
  | .other database => do
      let world ← ViewEvents.step site.world (.other database)
      return { site with world := world }

/-- Some pages were just loaded, and no view is stored yet. -/
def start (database : Database) (count : Nat) : Site :=
  ⟨ViewEvents.start database, List.replicate count Page.fresh⟩

/-- Nobody clicks on a shop whose modal is still under way on the page. -/
def Unhurried (site : Site) : Event → Prop
  | .click index id _ =>
      ∀ page, site.pages[index]? = some page →
        id ∉ page.requests.map Prod.fst ∧ id ∉ page.responses
  | _ => True

instance (site : Site) : (event : Event) → Decidable (Unhurried site event)
  | .click index _ _ =>
      inferInstanceAs (Decidable (∀ page ∈ site.pages[index]?, _ ∧ _))
  | .serve _ _ _ _ _ => isTrue trivial
  | .arrive _ _ => isTrue trivial
  | .search _ _ => isTrue trivial
  | .other _ => isTrue trivial

/-- The modals of a shop that a page has, or that are on their way. -/
def Page.held (id : String) (page : Page) : Nat :=
  page.responses.count id + page.modals.count id

/-- The requests of a page for a shop whose view is stored. -/
def Page.answered (id : String) (page : Page) : Nat :=
  page.held id + page.failures.count id

/-- The page has the modal of the shop, or it is on its way. -/
def Page.has (id : String) (page : Page) : Bool :=
  id ∈ page.responses || id ∈ page.modals

/-! ## One page changes -/

/-- What one replaced page does to a sum over the pages. -/
theorem sum_set {Item : Type} (weight : Item → Nat)
    {items : List Item} {index : Nat} {old : Item}
    (found : items[index]? = some old) (new : Item) :
    ((items.set index new).map weight).sum + weight old =
      (items.map weight).sum + weight new := by
  induction items generalizing index with
  | nil => cases found
  | cons item items inductionHypothesis =>
      cases index with
      | zero =>
          cases found
          simp only [List.set_cons_zero, List.map_cons, List.sum_cons]
          omega
      | succ index =>
          have later := inductionHypothesis
            (show items[index]? = some old by simpa using found)
          simp only [List.set_cons_succ, List.map_cons, List.sum_cons]
          omega

theorem answered_openModalByUuid (page : Page) (id mode wanted : String) :
    (openModalByUuid page id mode).answered wanted =
      page.answered wanted := by
  unfold openModalByUuid
  split
  · rfl
  · rfl

theorem held_appendModal
    {page : Page} {id : String} (member : id ∈ page.responses)
    (wanted : String) :
    (appendModal page id).held wanted = page.held wanted := by
  by_cases same : wanted = id
  · subst same
    have positive := List.count_pos_iff.mpr member
    simp only [Page.held, appendModal, List.count_erase_self,
      List.count_append, List.count_singleton_self]
    omega
  · have other : ¬ id = wanted := fun equal => same equal.symm
    simp [Page.held, appendModal, List.count_erase_of_ne, same,
      List.count_append, other]

theorem answered_appendModal
    {page : Page} {id : String} (member : id ∈ page.responses)
    (wanted : String) :
    (appendModal page id).answered wanted = page.answered wanted := by
  rw [Page.answered, held_appendModal member, Page.answered]
  rfl

/-- One more request is answered, whether its modal is rendered or not. -/
theorem answered_served (page : Page) (id mode wanted : String)
    (rendered : Bool) :
    Page.answered wanted
        (if rendered then
          { page with
            requests := page.requests.erase (id, mode)
            responses := page.responses ++ [id] }
        else
          { page with
            requests := page.requests.erase (id, mode)
            failures := page.failures ++ [id] }) =
      page.answered wanted + [id].count wanted := by
  cases rendered with
  | true =>
      simp only [Page.answered, Page.held, List.count_append, if_true]
      omega
  | false =>
      simp only [Page.answered, Page.held, List.count_append,
        Bool.false_eq_true, if_false]
      omega

/-! ## The views are those of the pages -/

/--
The pages refine the event log: their requests are a run of it, in which a
shop is opened once for each answer.
-/
structure Refines (database : Database) (site : Site)
    (views : List Action) : Prop where
  run : Reaches ViewEvents.step Anything
    (ViewEvents.start database) views site.world
  answered : ∀ id,
    views.countP (Action.isOf id) =
      (site.pages.map (Page.answered id)).sum

theorem refines_start (database : Database) (count : Nat) :
    Refines database (start database count) [] where
  run := .start
  answered := by
    intro id
    have none : ∀ weight ∈
        (List.replicate count Page.fresh).map (Page.answered id),
        weight = 0 := by
      intro weight member
      obtain ⟨page, isPage, rfl⟩ := List.mem_map.mp member
      rw [List.eq_of_mem_replicate isPage]
      rfl
    exact (List.sum_eq_zero none).symm

/-- A page that is replaced by one with the same answers. -/
theorem Refines.set_page
    {database : Database} {site : Site} {views : List Action}
    (refines : Refines database site views)
    {index : Nat} {old new : Page}
    (found : site.pages[index]? = some old)
    (same : ∀ id, new.answered id = old.answered id) :
    Refines database { site with pages := site.pages.set index new }
      views where
  run := refines.run
  answered := by
    intro id
    have replaced := sum_set (Page.answered id) found new
    rw [same id] at replaced
    have before := refines.answered id
    simp only
    omega

/-- An action of the log that opens no shop. -/
theorem Refines.background
    {database : Database} {site : Site} {views : List Action}
    (refines : Refines database site views)
    {action : Action} {world : World}
    (moved : ViewEvents.step site.world action = some world)
    (silent : ∀ id, action.isOf id = false) :
    Refines database { site with world := world } (action :: views) where
  run := .next refines.run trivial moved
  answered := by
    intro id
    rw [List.countP_cons, silent id, refines.answered id]
    simp

theorem Refines.serve
    {database : Database} {site : Site} {views : List Action}
    (refines : Refines database site views)
    {index : Nat} {page : Page}
    (found : site.pages[index]? = some page)
    (id mode : String) (today : Date) (rendered : Bool) :
    ∃ more,
      Refines database
        (ModalLoading.serve site index page id mode today rendered)
        more := by
  unfold ModalLoading.serve
  cases moved :
      ViewEvents.step site.world (.modal id (.text mode) today) with
  | none => exact ⟨views, refines.set_page found fun wanted => rfl⟩
  | some world =>
      refine ⟨.modal id (.text mode) today :: views,
        .next refines.run trivial moved, ?_⟩
      intro wanted
      have replaced := fun new =>
        sum_set (Page.answered wanted) found new
      have served := answered_served page id mode wanted rendered
      have before := refines.answered wanted
      have after := replaced
        (if rendered then
          { page with
            requests := page.requests.erase (id, mode)
            responses := page.responses ++ [id] }
        else
          { page with
            requests := page.requests.erase (id, mode)
            failures := page.failures ++ [id] })
      rw [served] at after
      rw [List.countP_cons]
      by_cases same : id = wanted
      · subst same
        simp only [List.count_singleton_self] at after
        simp only [Action.isOf, decide_true, if_true]
        omega
      · have none : [id].count wanted = 0 := by
          simp [same]
        rw [none] at after
        simp only [Action.isOf, same, decide_false, Bool.false_eq_true,
          if_false]
        omega

theorem Refines.step
    {database : Database} {site target : Site} {views : List Action}
    {event : Event}
    (refines : Refines database site views)
    (moved : ModalLoading.step site event = some target) :
    ∃ more, Refines database target more := by
  cases event with
  | click index id mode =>
      obtain ⟨page, found, equal⟩ := Option.bind_eq_some_iff.mp moved
      cases equal
      exact ⟨views, refines.set_page found
        (answered_openModalByUuid page id mode)⟩
  | serve index id mode today rendered =>
      obtain ⟨page, found, equal⟩ := Option.bind_eq_some_iff.mp moved
      split at equal
      · cases equal
        exact refines.serve found id mode today rendered
      · cases equal
  | arrive index id =>
      obtain ⟨page, found, equal⟩ := Option.bind_eq_some_iff.mp moved
      split at equal
      · rename_i member
        cases equal
        exact ⟨views, refines.set_page found (answered_appendModal member)⟩
      · cases equal
  | search query today =>
      obtain ⟨world, searched, equal⟩ := Option.bind_eq_some_iff.mp moved
      cases equal
      exact ⟨_, refines.background searched fun id => rfl⟩
  | other other =>
      have changed :
          ViewEvents.step site.world (.other other) =
            some { site.world with database := other } := rfl
      cases moved
      exact ⟨_, refines.background changed fun id => rfl⟩

/-- The requests of a run of the pages are a run of the event log. -/
theorem refines_of_run
    {database : Database} {count : Nat} {meets : Site → Event → Prop}
    {history : List Event} {site : Site}
    (run : Reaches step meets (start database count) history site) :
    ∃ views, Refines database site views := by
  induction run with
  | start => exact ⟨[], refines_start database count⟩
  | next earlier condition moved inductionHypothesis =>
      obtain ⟨views, refines⟩ := inductionHypothesis
      exact refines.step moved

/-! ## One answer each -/

/-- What a page has asked for and got of a shop. -/
def Page.asked (id : String) (page : Page) : Nat :=
  (page.requests.map Prod.fst).count id + page.held id

/-- No page asks twice for a shop. -/
def AskedOnce (site : Site) : Prop :=
  ∀ page ∈ site.pages, ∀ id, page.asked id ≤ 1

theorem askedOnce_set
    {site : Site} (once : AskedOnce site) {world : World} {index : Nat}
    {new : Page} (newOnce : ∀ id, new.asked id ≤ 1) :
    AskedOnce ⟨world, site.pages.set index new⟩ := by
  intro page member id
  rcases List.mem_or_eq_of_mem_set member with old | rfl
  · exact once page old id
  · exact newOnce id

theorem asked_openModalByUuid
    {page : Page} (once : ∀ id, page.asked id ≤ 1) {id mode : String}
    (idle : id ∉ page.requests.map Prod.fst ∧ id ∉ page.responses)
    (wanted : String) :
    (openModalByUuid page id mode).asked wanted ≤ 1 := by
  unfold openModalByUuid
  split
  · exact once wanted
  · rename_i missing
    by_cases same : id = wanted
    · subst same
      simp [Page.asked, Page.held, List.count_append,
        List.count_eq_zero.mpr idle.1, List.count_eq_zero.mpr idle.2,
        List.count_eq_zero.mpr missing]
    · have before := once wanted
      simpa [Page.asked, Page.held, List.count_append, same] using before

/-- A request that is taken becomes an answer, or nothing. -/
theorem count_erase_request
    {requests : List (String × String)} {id mode : String}
    (member : (id, mode) ∈ requests) (wanted : String) :
    ((requests.erase (id, mode)).map Prod.fst).count wanted +
        [id].count wanted =
      (requests.map Prod.fst).count wanted := by
  have moved : requests.Perm ((id, mode) :: requests.erase (id, mode)) :=
    List.perm_cons_erase member
  rw [(moved.map Prod.fst).count_eq, List.map_cons]
  simp only [List.count_cons, List.count_nil]
  omega

theorem askedOnce_step
    {site target : Site} {event : Event}
    (once : AskedOnce site) (unhurried : Unhurried site event)
    (moved : step site event = some target) :
    AskedOnce target := by
  cases event with
  | click index id mode =>
      obtain ⟨page, found, equal⟩ := Option.bind_eq_some_iff.mp moved
      cases equal
      exact askedOnce_set once (asked_openModalByUuid
        (once page (List.mem_of_getElem? found)) (unhurried page found))
  | serve index id mode today rendered =>
      obtain ⟨page, found, equal⟩ := Option.bind_eq_some_iff.mp moved
      have pageOnce := once page (List.mem_of_getElem? found)
      split at equal
      · rename_i member
        cases equal
        unfold serve
        split
        · refine askedOnce_set once fun wanted => ?_
          have before := pageOnce wanted
          have erased := count_erase_request member wanted
          cases rendered with
          | true =>
              simp only [Page.asked, Page.held, List.count_append,
                if_true] at before ⊢
              omega
          | false =>
              simp only [Page.asked, Page.held, Bool.false_eq_true,
                if_false] at before ⊢
              omega
        · refine askedOnce_set once fun wanted => ?_
          have before := pageOnce wanted
          have erased := count_erase_request member wanted
          simp only [Page.asked, Page.held] at before ⊢
          omega
      · cases equal
  | arrive index id =>
      obtain ⟨page, found, equal⟩ := Option.bind_eq_some_iff.mp moved
      have pageOnce := once page (List.mem_of_getElem? found)
      split at equal
      · rename_i member
        cases equal
        refine askedOnce_set once fun wanted => ?_
        have before := pageOnce wanted
        have kept := held_appendModal member wanted
        have sameRequests :
            (appendModal page id).requests = page.requests := rfl
        simp only [Page.asked, sameRequests] at before ⊢
        omega
      · cases equal
  | search query today =>
      obtain ⟨world, searched, equal⟩ := Option.bind_eq_some_iff.mp moved
      cases equal
      exact once
  | other database =>
      cases moved
      exact once

theorem held_eq_has {page : Page} {id : String}
    (once : page.asked id ≤ 1) :
    page.held id = if page.has id then 1 else 0 := by
  have bound : page.held id ≤ 1 := by
    simp only [Page.asked] at once
    omega
  by_cases held : page.has id = true
  · rw [if_pos held]
    have positive : 0 < page.held id := by
      simp only [Page.has, Bool.or_eq_true, decide_eq_true_eq] at held
      simp only [Page.held]
      rcases held with response | modal
      · have := List.count_pos_iff.mpr response
        omega
      · have := List.count_pos_iff.mpr modal
        omega
    omega
  · rw [if_neg held]
    simp only [Page.has, Bool.or_eq_true, decide_eq_true_eq,
      not_or] at held
    simp [Page.held, List.count_eq_zero.mpr held.1,
      List.count_eq_zero.mpr held.2]

/-- One for each selected item, and what each item adds. -/
theorem sum_eq_countP {Item : Type} {weight extra : Item → Nat}
    {selected : Item → Bool} {items : List Item}
    (each : ∀ item ∈ items,
      weight item = (if selected item then 1 else 0) + extra item) :
    (items.map weight).sum =
      items.countP selected + (items.map extra).sum := by
  induction items with
  | nil => rfl
  | cons item items inductionHypothesis =>
      have later := inductionHypothesis fun other member =>
        each other (List.mem_cons_of_mem item member)
      rw [List.map_cons, List.sum_cons, later, List.countP_cons,
        each item List.mem_cons_self, List.map_cons, List.sum_cons]
      omega

/--
When nobody clicks on a shop whose modal is still under way, the statistics of
the shop add up to the number of pages that opened it, however often they did,
and the requests that failed after their view was stored.
-/
theorem views_count_pages
    {database : Database} {count : Nat} {history : List Event} {site : Site}
    (run : Reaches step Unhurried (start database count) history site)
    {id : String} (uuid : IsUuid id) :
    ∃ data, viewData site.world id = .ok data ∧
      total data =
        site.pages.countP (Page.has id) +
          (site.pages.map fun page => page.failures.count id).sum := by
  obtain ⟨views, refines⟩ := refines_of_run run
  have once : AskedOnce site := by
    refine run.invariant ?_ askedOnce_step
    intro page member id
    rw [List.eq_of_mem_replicate member]
    exact Nat.zero_le 1
  refine ⟨_, viewData_of_run refines.run uuid, ?_⟩
  have distinct : ((([] : ShopStats.Series).map Prod.fst)).Nodup :=
    List.nodup_nil
  have pages := @sum_eq_countP Page (Page.answered id)
    (fun page => page.failures.count id) (Page.has id) site.pages
    (fun page member => by
      rw [Page.answered, held_eq_has (once page member id)])
  rw [total_countActions id _ distinct, List.countP_reverse,
    refines.answered id, pages]
  exact Nat.zero_add _

/--
Two pages open the shop, one of them after a request whose modal could not be
rendered, and the other opens it again.
-/
def twoOpen : List Event :=
  [.click 0 wifiShop.id "map", .click 1 wifiShop.id "tag",
    .serve 1 wifiShop.id "tag" EventCounters.newYear false,
    .serve 0 wifiShop.id "map" EventCounters.newYear true,
    .click 1 wifiShop.id "tag", .arrive 0 wifiShop.id,
    .search (.text "quiet") EventCounters.newYear,
    .serve 1 wifiShop.id "tag" EventCounters.newYear true,
    .click 0 wifiShop.id "map"]

def openedPages (site : Site) : List (Bool × List String) :=
  site.pages.map fun page => (page.has wifiShop.id, page.failures)

theorem two_open_three_views :
    ∃ site data,
      Reaches step Unhurried (start wifiSite 2) twoOpen.reverse site ∧
        openedPages site = [(true, []), (true, [wifiShop.id])] ∧
        viewData site.world wifiShop.id = .ok data ∧ total data = 3 := by
  have replayed :
      (replay (guarded step fun site event => Unhurried site event)
        (start wifiSite 2) twoOpen).map openedPages =
          some [(true, []), (true, [wifiShop.id])] := by
    decide +kernel
  obtain ⟨site, moved, pages⟩ := Option.map_eq_some_iff.mp replayed
  have run : Reaches step Unhurried (start wifiSite 2) twoOpen.reverse
      site :=
    .of_guarded of_decide_eq_true (.of_replay moved)
  obtain ⟨data, counted, sum⟩ := views_count_pages run
    (show IsUuid wifiShop.id by decide +kernel)
  refine ⟨site, data, run, pages, counted, ?_⟩
  have opened : site.pages.countP (Page.has wifiShop.id) =
      (openedPages site).countP Prod.fst := by
    rw [openedPages, List.countP_map]
    rfl
  have failed :
      (site.pages.map fun page => page.failures.count wifiShop.id) =
        (openedPages site).map fun page => page.2.count wifiShop.id := by
    rw [openedPages, List.map_map]
    rfl
  rw [sum, opened, failed, pages]
  decide

end NomadiCore.ModalLoading
