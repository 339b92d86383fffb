import TutaBridge.Imap.Session
import TutaBridge.Std.Sorting

/-!
# The client's copy of the view

A client keeps a list of messages by sequence number. `applyResponse` is what an
untagged EXPUNGE or EXISTS does to it; a message that EXISTS announces is not
known yet. After the responses of `checkNewMail` the client holds the messages
that stayed, in the places the new view has them, and room for the new ones.
-/

namespace TutaBridge.Imap

open TutaBridge.Std Tuta Store Events

variable {mails : List StoredMail} {view : List CachedMail}

/-- The list of a client after a response. -/
def applyResponse (held : List (Option CachedMail)) : Response → List (Option CachedMail)
  | .expunge seq => held.eraseIdx (seq - 1)
  | .exist count => held ++ List.replicate (count - held.length) none
  | _ => held

/-- The list of a client that held the view, after the responses. -/
def mirror (view : List CachedMail) (responses : List Response) : List (Option CachedMail) :=
  responses.foldl applyResponse (view.map some)

/-- What the folder's content may be when the view is brought up to date: the
mails of both keep their UIDs, and a new mail has a larger one. -/
structure Succeeds (mails : List StoredMail) (view : List CachedMail) : Prop where
  viewNamed : ∀ cached ∈ view, cached.elementId ≠ none
  viewDistinct : (view.map CachedMail.elementId).Nodup
  viewSorted : view.Pairwise fun left right => left.uid ≤ right.uid
  named : ∀ stored ∈ mails, stored.elementId ≠ none
  distinct : (mails.map StoredMail.elementId).Nodup
  keepsUid : ∀ cached ∈ view, ∀ stored ∈ mails, stored.elementId = cached.elementId → stored.uid = cached.uid
  larger : ∀ stored ∈ mails, stored.elementId ∉ view.map CachedMail.elementId →
    ∀ cached ∈ view, cached.uid < stored.uid

/-- The messages of the view that the folder still has. -/
def staying (mails : List StoredMail) (view : List CachedMail) : List CachedMail :=
  view.filter fun cached => cached.elementId ∈ mails.map StoredMail.elementId

/-- The mails of one UID stand in the folder in the order of the view. -/
def KeepsTies (mails : List StoredMail) (view : List CachedMail) : Prop :=
  ∀ uid, (((staying mails view).filter (·.uid = uid)).map CachedMail.elementId).Sublist
    (mails.map StoredMail.elementId)

/-! ## The order of the new view -/

/-- A message by its UID and its id. -/
def CachedMail.tag : CachedMail → Nat × Option String := fun cached => (cached.uid, cached.elementId)

def StoredMail.tag : StoredMail → Nat × Option String := fun stored => (stored.uid, stored.elementId)

section Order

variable {mails : List StoredMail} {view : List CachedMail}

/-- The mails the view does not have. -/
def arriving (mails : List StoredMail) (view : List CachedMail) : List StoredMail :=
  mails.filter fun stored => stored.elementId ∉ view.map CachedMail.elementId

theorem map_tag_byUid (mails : List StoredMail) : (ImapSession.byUid mails).map StoredMail.tag =
      (mails.map StoredMail.tag).insertionSort fun left right => left.1 ≤ right.1 :=
  List.map_insertionSort _ _ _ _ fun _ _ _ _ => Iff.rfl

variable (succeeds : Succeeds mails view)

include succeeds

/-- At a UID of the view the folder has the mails that stay. -/
theorem Succeeds.ids_at_known (ties : KeepsTies mails view) {uid : Nat} (known : ∃ cached ∈ view, cached.uid = uid) :
    ((staying mails view).filter (·.uid = uid)).map CachedMail.elementId =
      (mails.filter (·.uid = uid)).map StoredMail.elementId := by
  obtain ⟨present, presentMember, presentUid⟩ := known
  refine sublist_ext (ties uid) (List.filter_sublist.map _) succeeds.distinct fun id => ?_
  simp only [staying, List.mem_map, List.mem_filter, decide_eq_true_eq]
  constructor
  · rintro ⟨cached, ⟨⟨inView, stored, inMails, sameId⟩, sameUid⟩, rfl⟩
    exact ⟨stored, ⟨inMails, (succeeds.keepsUid cached inView stored inMails sameId).trans sameUid⟩, sameId⟩
  · rintro ⟨stored, ⟨inMails, sameUid⟩, rfl⟩
    by_cases inView : stored.elementId ∈ view.map CachedMail.elementId
    · obtain ⟨cached, mem, sameId⟩ := List.mem_map.mp inView
      have keeps := succeeds.keepsUid cached mem stored inMails sameId.symm
      exact ⟨cached, ⟨⟨mem, stored, inMails, sameId.symm⟩, keeps.symm.trans sameUid⟩, sameId⟩
    · have greater := succeeds.larger stored inMails inView present presentMember
      omega

/-- At any other UID it has the mails that arrive. -/
theorem Succeeds.filter_arriving {uid : Nat} (unknown : ¬ ∃ cached ∈ view, cached.uid = uid) :
    (arriving mails view).filter (·.uid = uid) = mails.filter (·.uid = uid) := by
  rw [arriving, List.filter_filter]
  refine List.filter_congr fun stored mem => ?_
  by_cases sameUid : stored.uid = uid
  · have isNew : stored.elementId ∉ view.map CachedMail.elementId := by
      intro inView
      obtain ⟨cached, inViewMember, sameId⟩ := List.mem_map.mp inView
      exact unknown ⟨cached, inViewMember,
        (succeeds.keepsUid cached inViewMember stored mem sameId.symm).symm.trans sameUid⟩
    simp [sameUid, isNew]
  · simp [sameUid]

/-- The folder by UID: the messages that stay in the order of the view, and after
them what arrives. -/
theorem Succeeds.tags_byUid (ties : KeepsTies mails view) : (ImapSession.byUid mails).map StoredMail.tag =
      (staying mails view).map CachedMail.tag ++ (ImapSession.byUid (arriving mails view)).map StoredMail.tag := by
  rw [map_tag_byUid mails]
  refine insertionSort_eq_of_filter_key Prod.fst ?_ fun uid => ?_
  · have total : Std.Total fun left right : Nat × Option String => left.1 ≤ right.1 :=
      ⟨fun left right => Nat.le_total left.1 right.1⟩
    have transitive : IsTrans (Nat × Option String) fun left right => left.1 ≤ right.1 :=
      ⟨fun _ _ _ => Nat.le_trans⟩
    refine List.pairwise_append.mpr ⟨?_, ?_, ?_⟩
    · exact List.pairwise_map.mpr (succeeds.viewSorted.sublist List.filter_sublist)
    · rw [map_tag_byUid]
      exact List.pairwise_insertionSort _ _
    · intro old oldMember new newMember
      obtain ⟨cached, stays, rfl⟩ := List.mem_map.mp oldMember
      obtain ⟨stored, arrives, rfl⟩ := List.mem_map.mp newMember
      rw [ImapSession.byUid, List.mem_insertionSort, arriving, List.mem_filter,
        decide_eq_true_eq] at arrives
      exact (succeeds.larger stored arrives.1 arrives.2 cached (List.mem_filter.mp stays).1).le
  · rw [List.filter_append, map_tag_byUid, filter_insertionSort]
    unfold CachedMail.tag StoredMail.tag
    rw [filter_map_pair, filter_map_pair, filter_map_pair]
    by_cases known : ∃ cached ∈ view, cached.uid = uid
    · have noneNew : (arriving mails view).filter (·.uid = uid) = [] := by
        rw [List.filter_eq_nil_iff]
        intro stored arrives sameUid
        obtain ⟨cached, mem, rfl⟩ := known
        rw [arriving, List.mem_filter, decide_eq_true_eq] at arrives
        have greater := succeeds.larger stored arrives.1 arrives.2 cached mem
        simp only [decide_eq_true_eq] at sameUid
        omega
      rw [noneNew, succeeds.ids_at_known ties known]
      simp
    · have noneOld : (staying mails view).filter (·.uid = uid) = [] := by
        rw [List.filter_eq_nil_iff]
        intro cached stays sameUid
        exact known ⟨cached, (List.mem_filter.mp stays).1, by simpa using sameUid⟩
      rw [noneOld, succeeds.filter_arriving known]
      simp

end Order

/-! ## The responses -/

/-- The message is not among the ids. -/
def isGone (ids : List String) (cached : CachedMail) : Bool :=
  match cached.elementId with
  | none => false
  | some id => id ∉ ids

theorem departed_eq_positions (ids : List String) (seq : Nat) (view : List CachedMail) :
    ImapSession.departed ids seq view = positions (isGone ids) seq view := by
  induction view generalizing seq with
  | nil => rfl
  | cons cached rest ih =>
    rw [ImapSession.departed, positions, isGone, ih]
    cases cached.elementId with
    | none => simp
    | some id => by_cases mem : id ∈ ids <;> simp [mem]

theorem isGone_eq_false_iff (mails : List StoredMail) {cached : CachedMail} (named : cached.elementId ≠ none) :
    isGone (mails.filterMap StoredMail.elementId) cached = false ↔
      cached.elementId ∈ mails.map StoredMail.elementId := by
  cases found : cached.elementId with
  | none => exact absurd found named
  | some id => simp [isGone, found]

/-- A client that applies the responses of a change is left with the messages
that stay and room for the rest. -/
theorem mirror_responses (viewNamed : ∀ cached ∈ view, cached.elementId ≠ none) (count : Nat) :
    mirror view (((ImapSession.departed (mails.filterMap StoredMail.elementId) 1 view).insertionSort
        (· ≥ ·)).map .expunge ++ [.exist count]) =
      (staying mails view).map some ++ List.replicate (count - (staying mails view).length) none := by
  have remaining : (view.filter fun cached =>
      !isGone (mails.filterMap StoredMail.elementId) cached) = staying mails view := by
    refine List.filter_congr fun cached mem => ?_
    rw [Bool.eq_iff_iff, Bool.not_eq_true', decide_eq_true_eq]
    exact isGone_eq_false_iff mails (viewNamed cached mem)
  have erased := foldr_eraseIdx_positions (isGone (mails.filterMap StoredMail.elementId))
    (some : CachedMail → Option CachedMail) [] view
  rw [List.nil_append, List.nil_append, remaining] at erased
  rw [departed_eq_positions, insertionSort_ge_eq_reverse (positions_ascending _ 1 view), mirror,
    List.foldl_append, List.foldl_map, List.foldl_reverse]
  simp only [applyResponse, List.foldl_cons, List.foldl_nil]
  rw [show (positions _ 1 view).foldr _ _ = _ from erased, List.length_map]

/-- Without a change the folder holds the mails of the view. -/
theorem unchanged_iff
    (viewNamed : ∀ cached ∈ view, cached.elementId ≠ none) (named : ∀ stored ∈ mails, stored.elementId ≠ none) :
    ImapSession.changed view mails = false ↔
      staying mails view = view ∧ arriving mails view = [] ∧ mails.length = view.length := by
  have noneGone : ImapSession.departed (mails.filterMap StoredMail.elementId) 1 view = [] ↔
      staying mails view = view := by
    rw [departed_eq_positions, positions_eq_nil_iff, staying, List.filter_eq_self]
    refine forall₂_congr fun cached mem => ?_
    rw [isGone_eq_false_iff mails (viewNamed cached mem), decide_eq_true_eq]
  have noneAdded : ImapSession.added view mails = 0 ↔ arriving mails view = [] := by
    rw [ImapSession.added, List.countP_eq_zero, arriving, List.filter_eq_nil_iff]
    refine forall₂_congr fun stored mem => ?_
    cases found : stored.elementId with
    | none => exact absurd found (named stored mem)
    | some id => simp
  simp only [ImapSession.changed, decide_eq_false_iff_not, not_or, not_not, noneGone, noneAdded]

/-! ## The mirror -/

section Mirror

variable {session : ImapSession} {store : MailStore} {folder : FolderInfo}

theorem map_elementId_refreshMails (folderId : String) :
    (session.refreshMails folderId store).mails.map CachedMail.elementId =
      (ImapSession.byUid (store.getFolder folderId)).map StoredMail.elementId := by
  rw [ImapSession.refreshMails, List.map_map]
  rfl

/-- The new view begins with the messages that stay. -/
theorem Succeeds.staying_prefix (succeeds : Succeeds (store.getFolder folder.id) session.mails)
    (ties : KeepsTies (store.getFolder folder.id) session.mails) :
    (ImapSession.byUid (store.getFolder folder.id)).map StoredMail.elementId =
      (staying (store.getFolder folder.id) session.mails).map CachedMail.elementId ++
        (ImapSession.byUid (arriving (store.getFolder folder.id) session.mails)).map StoredMail.elementId := by
  have ids := congrArg (List.map Prod.snd) (succeeds.tags_byUid ties)
  rw [List.map_append, List.map_map, List.map_map, List.map_map] at ids
  exact ids

/-- After `checkNewMail` the client holds the messages that stayed where the new
view has them, with as many places as EXISTS says. When it is told nothing the
view is the folder in the order of UIDs. -/
theorem checkNewMail_mirrored (selected : session.selectedFolder = some folder)
    (succeeds : Succeeds (store.getFolder folder.id) session.mails)
    (ties : KeepsTies (store.getFolder folder.id) session.mails) : ((session.checkNewMail store store).1 ≠ [] →
      ∃ unknown, mirror session.mails (session.checkNewMail store store).1 =
          (staying (store.getFolder folder.id) session.mails).map some ++ List.replicate unknown none ∧
        (staying (store.getFolder folder.id) session.mails).map CachedMail.elementId <+:
          (session.checkNewMail store store).2.mails.map CachedMail.elementId ∧
        (session.checkNewMail store store).1.getLast? =
          some (.exist (mirror session.mails (session.checkNewMail store store).1).length) ∧
        (mirror session.mails (session.checkNewMail store store).1).length =
          (session.checkNewMail store store).2.mails.length) ∧
      ((session.checkNewMail store store).1 = [] → (session.checkNewMail store store).2 = session ∧
          session.mails.map CachedMail.elementId =
            (ImapSession.byUid (store.getFolder folder.id)).map StoredMail.elementId) := by
  have order := succeeds.staying_prefix ties
  have counted := congrArg List.length order
  rw [List.length_append, List.length_map, List.length_map] at counted
  cases change : ImapSession.changed session.mails (store.getFolder folder.id) with
  | true =>
    simp only [ImapSession.checkNewMail, selected, change, if_true]
    have count : (session.refreshMails folder.id store).mails.length =
        (ImapSession.byUid (store.getFolder folder.id)).length := List.length_map _
    refine ⟨fun _ => ?_, fun nothing => by simp at nothing⟩
    rw [mirror_responses succeeds.viewNamed, count, List.length_append, List.length_map,
      List.length_replicate]
    refine ⟨_, rfl, ?_, ?_, by omega⟩
    · rw [map_elementId_refreshMails, order]
      exact List.prefix_append _ _
    · rw [List.getLast?_append]
      simp only [List.getLast?_singleton, Option.some_or, Option.some.injEq, Response.exist.injEq]
      omega
  | false =>
    simp only [ImapSession.checkNewMail, selected, change, Bool.false_eq_true, if_false]
    obtain ⟨allStay, noneArrive, -⟩ := (unchanged_iff succeeds.viewNamed succeeds.named).mp change
    refine ⟨fun something => absurd rfl something, fun _ => ⟨by trivial, ?_⟩⟩
    rw [order, allStay, noneArrive]
    simp [ImapSession.byUid]

end Mirror

/-- In a view with distinct UIDs there are no ties to keep. -/
theorem keepsTies_of_distinct (distinct : (view.map CachedMail.uid).Nodup) : KeepsTies mails view := by
  intro uid
  have alone : ((staying mails view).filter (·.uid = uid)).Pairwise fun left right =>
      left.uid ≠ right.uid :=
    (List.pairwise_map.mp distinct).sublist (List.filter_sublist.trans List.filter_sublist)
  cases tied : (staying mails view).filter (·.uid = uid) with
  | nil => exact List.nil_sublist _
  | cons first rest =>
    have sameUid : ∀ cached ∈ first :: rest, cached.uid = uid := by
      rw [← tied]
      exact fun cached mem => of_decide_eq_true (List.mem_filter.mp mem).2
    have stays : first ∈ staying mails view := by
      have mem : first ∈ (staying mails view).filter (·.uid = uid) := tied ▸ List.mem_cons_self
      exact (List.mem_filter.mp mem).1
    cases rest with
    | nil => exact List.singleton_sublist.mpr (of_decide_eq_true (List.mem_filter.mp stays).2)
    | cons second rest =>
      rw [tied] at alone
      have different := List.rel_of_pairwise_cons alone List.mem_cons_self
      rw [sameUid first List.mem_cons_self,
        sameUid second (List.mem_cons_of_mem _ List.mem_cons_self)] at different
      exact absurd rfl different

/-- A view of two messages. -/
def pairView (first second : Nat) : List CachedMail :=
  [sampleCached "mail1" first false, sampleCached "mail2" second false]

/-- The store with the mails in the selected folder. -/
def inboxOf (mails : List StoredMail) : MailStore := (sampleWorld [] [("inbox", mails)]).store

/-- A client that has the folder of `inboxOf` selected. -/
def inboxSession (view : List CachedMail) : ImapSession :=
  sampleSession (sampleFolder "inbox" "entries") view

/-- One message leaves, one stays and one arrives. -/
theorem checkNewMail_mirrored_swap :
    ∃ unknown, mirror (pairView 1 2) ((inboxSession (pairView 1 2)).checkNewMail
        (inboxOf [sampleStored "mail3" 3, sampleStored "mail2" 2])
        (inboxOf [sampleStored "mail3" 3, sampleStored "mail2" 2])).1 =
      [some (sampleCached "mail2" 2 false)] ++ List.replicate unknown none ∧ 1 + unknown = 2 := by
  have succeeds : Succeeds ((inboxOf [sampleStored "mail3" 3, sampleStored "mail2" 2]).getFolder
      (sampleFolder "inbox" "entries").id) (inboxSession (pairView 1 2)).mails := by
    constructor <;> decide +kernel
  have ties := @keepsTies_of_distinct
    ((inboxOf [sampleStored "mail3" 3, sampleStored "mail2" 2]).getFolder "inbox") (pairView 1 2)
    (by decide)
  obtain ⟨unknown, mirrored, -, -, counted⟩ := (checkNewMail_mirrored rfl succeeds ties).1 (by decide +kernel)
  have stays : staying ((inboxOf [sampleStored "mail3" 3, sampleStored "mail2" 2]).getFolder
      (sampleFolder "inbox" "entries").id) (inboxSession (pairView 1 2)).mails =
        [sampleCached "mail2" 2 false] := by decide +kernel
  rw [mirrored, stays, List.length_append, List.length_map, List.length_replicate] at counted
  rw [stays] at mirrored
  exact ⟨unknown, mirrored, counted.trans (by decide +kernel)⟩

/-- Two messages share a UID and the folder has them the other way round: when a
third arrives, the client keeps them in their places and the view does not. -/
theorem checkNewMail_tie :
    Succeeds ((inboxOf [sampleStored "mail2" 5, sampleStored "mail1" 5, sampleStored "mail3" 6]).getFolder
        "inbox") (pairView 5 5) ∧
      (mirror (pairView 5 5) ((inboxSession (pairView 5 5)).checkNewMail
        (inboxOf [sampleStored "mail2" 5, sampleStored "mail1" 5, sampleStored "mail3" 6])
        (inboxOf [sampleStored "mail2" 5, sampleStored "mail1" 5, sampleStored "mail3" 6])).1).map
          (·.bind CachedMail.elementId) = [some "mail1", some "mail2", none] ∧
      ((inboxSession (pairView 5 5)).checkNewMail
        (inboxOf [sampleStored "mail2" 5, sampleStored "mail1" 5, sampleStored "mail3" 6])
        (inboxOf [sampleStored "mail2" 5, sampleStored "mail1" 5, sampleStored "mail3" 6])).2.mails.map
          CachedMail.elementId = [some "mail2", some "mail1", some "mail3"] := by
  refine ⟨?_, by decide +kernel, by decide +kernel⟩
  constructor <;> decide +kernel

end TutaBridge.Imap
