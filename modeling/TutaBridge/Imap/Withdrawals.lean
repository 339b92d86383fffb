import TutaBridge.Imap.Selection
import TutaBridge.Imap.SequenceSets

/-!
# Messages that leave the view

EXPUNGE and MOVE ask the server once and take messages out of the view only when it
accepts. The numbers of the EXPUNGE responses are those of a client that applies them one
after the other.
-/

namespace TutaBridge.Imap

open TutaBridge.Std Tuta Store Bridge Events

namespace ImapSession

/-- The messages a sequence set stands for, in the order of the view. -/
def messagesAt (session : ImapSession) (indices : List Nat) : List CachedMail :=
  elementsAt session.mails indices

/-- The other messages. -/
def messagesBeside (session : ImapSession) (indices : List Nat) : List CachedMail :=
  elementsBeside session.mails indices

/-- The ids the server is given are those of the messages, in the order of the view. -/
theorem idsAt_picked (session : ImapSession) (set : Text) (uidMode : Bool) :
    session.idsAt (session.picked set uidMode) =
      (session.messagesAt (session.picked set uidMode)).filterMap (·.mail.id) := by
  have inside : ∀ index ∈ session.picked set uidMode, index < session.mails.length := by
    intro index mem
    have bound := lt_of_mem_resolveSequenceSet mem
    rwa [uids, List.length_map] at bound
  have ascending : (session.picked set uidMode).Pairwise (· < ·) := resolveSequenceSet_ascending set
  rw [messagesAt, ← filterMap_getElem?_ascending session.mails ascending inside,
    List.filterMap_filterMap, idsAt]

end ImapSession

/-- Messages with ids are as many as their ids. -/
theorem filterMap_id_eq_nil_iff {messages : List CachedMail} (named : ∀ cached ∈ messages, cached.mail.id ≠ none) :
    messages.filterMap (·.mail.id) = [] ↔ messages = [] := by
  rw [List.filterMap_eq_nil_iff]
  constructor
  · intro unnamed
    refine List.eq_nil_iff_forall_not_mem.mpr fun cached mem => ?_
    exact named cached mem (unnamed cached mem)
  · rintro rfl cached mem
    exact absurd mem List.not_mem_nil

/-! ## What the client makes of it -/

/-- A client that applies the EXPUNGE responses in turn keeps what the loop keeps. -/
theorem foldl_expungeWhere (gone : CachedMail → Bool) (front : List (Option CachedMail)) (list : List CachedMail) :
    (ImapSession.expungeWhere gone (front.length + 1) list).1.foldl applyResponse (front ++ list.map some) =
      front ++ (list.filter fun cached => !gone cached).map some := by
  induction list generalizing front with
  | nil => rfl
  | cons cached rest ih =>
    rw [ImapSession.expungeWhere]
    split
    next isGone =>
      rw [List.foldl_cons, applyResponse, Nat.add_sub_cancel,
        List.eraseIdx_append_of_length_le le_rfl, Nat.sub_self, List.map_cons,
        List.eraseIdx_cons_zero, ih]
      simp [isGone]
    next stays =>
      have kept := ih (front ++ [some cached])
      rw [List.length_append, List.length_singleton, List.append_assoc, List.append_assoc] at kept
      simpa [stays] using kept

theorem mirror_expungeWhere (gone : CachedMail → Bool) (view : List CachedMail) :
    mirror view ((ImapSession.expungeWhere gone 1 view).1 ++ [.tagged .ok]) =
      (view.filter fun cached => !gone cached).map some := by
  have applied := foldl_expungeWhere gone [] view
  rw [mirror, List.foldl_append]
  exact applied

/-! ## One request, and what it decides -/

/-- A command asks for at most one thing. When it is refused nothing has changed and
nothing is announced; when it is accepted the view is what is kept, and so is the list of
the client. -/
structure Withdraws (server : Server) (session : ImapSession) (world : World)
    (request : Option Request) (kept : List CachedMail) (done : Reply × ImapSession × World) :
    Prop where
  requests : done.1.requests = request.toList
  refused : ∀ message, (ImapSession.perform server request world).1 = .error message →
    done.2.1 = session ∧ ∀ seq, .expunge seq ∉ done.1.responses
  accepted : (ImapSession.perform server request world).1 = .ok () →
    done.2.1 = { session with mails := kept } ∧ mirror session.mails done.1.responses = kept.map some

/-- The request of an EXPUNGE names the marked messages, and it deletes only in Trash and
Spam. -/
theorem expungeRequest_spec {session : ImapSession}
    (named : ∀ cached ∈ session.mails, cached.mail.id ≠ none) :
    session.expungeRequest =
      if session.mails.filter CachedMail.deleted = [] then none
      else
        match session.selectedFolder with
        | some folder =>
          if folder.kind = .trash ∨ folder.kind = .spam then
            some (.deleteMails ((session.mails.filter CachedMail.deleted).filterMap (·.mail.id)) folder)
          else some (.trashMails ((session.mails.filter CachedMail.deleted).filterMap (·.mail.id)))
        | none => some (.trashMails ((session.mails.filter CachedMail.deleted).filterMap (·.mail.id))) := by
  have none' := @filterMap_id_eq_nil_iff (session.mails.filter CachedMail.deleted)
    fun cached mem => named cached (List.mem_filter.mp mem).1
  rw [ImapSession.expungeRequest, ImapSession.deletedIds]
  by_cases noneMarked : session.mails.filter CachedMail.deleted = []
  · rw [if_pos (List.isEmpty_iff.mpr (none'.mpr noneMarked)), if_pos noneMarked]
  · have someMarked := fun isEmpty => noneMarked (none'.mp (List.isEmpty_iff.mp isEmpty))
    refine (if_neg someMarked).trans (Eq.trans ?_ (if_neg noneMarked).symm)
    cases session.selectedFolder <;> rfl

theorem cmdExpunge_withdraws (server : Server) (session : ImapSession) (world : World)
    (selected : session.state = .selected) : Withdraws server session world session.expungeRequest
      (session.mails.filter fun cached => !cached.deleted) (session.cmdExpunge server world) := by
  rw [ImapSession.cmdExpunge, if_neg (not_not.mpr selected)]
  dsimp only
  cases answer : (ImapSession.perform server session.expungeRequest world).1 with
  | error message =>
    refine ⟨rfl, fun _ _ => ⟨rfl, by simp⟩, fun accepted => ?_⟩
    rw [answer] at accepted
    cases accepted
  | ok done =>
    refine ⟨rfl, fun _ refused => ?_, fun _ => ⟨?_, mirror_expungeWhere _ _⟩⟩
    · rw [answer] at refused
      cases refused
    · rw [expungeWhere_kept]

/-- Where the element ids are distinct, the loop of MOVE takes out the messages of the set. -/
theorem filter_isMoved {session : ImapSession}
    (distinct : (session.mails.map CachedMail.elementId).Nodup) (indices : List Nat)
    (named : ∀ cached ∈ session.mails, cached.mail.id ≠ none) :
    (session.mails.filter fun cached => !ImapSession.isMoved
        (((session.messagesAt indices).filterMap (·.mail.id)).map IdTuple.elementId) cached) =
      session.messagesBeside indices := by
  refine filter_eq_elementsBeside fun place cached found => ?_
  have mem := List.mem_of_getElem? found
  obtain ⟨id, hasId⟩ := Option.ne_none_iff_exists'.mp (named cached mem)
  have elementId : cached.elementId = some id.elementId := congrArg (Option.map _) hasId
  simp only [ImapSession.isMoved, elementId, decide_eq_true_eq, List.mem_map, List.mem_filterMap]
  constructor
  · rintro ⟨otherId, ⟨other, inSet, hasOther⟩, same⟩
    obtain ⟨index, chosen, there⟩ := mem_elementsAt.mp inSet
    have sameElement : other.elementId = cached.elementId := by
      rw [elementId, ← same]
      exact congrArg (Option.map _) hasOther
    have placeInside := (List.getElem?_eq_some_iff.mp found).1
    have indexInside := (List.getElem?_eq_some_iff.mp there).1
    have equal : index = place := by
      rw [← List.length_map CachedMail.elementId] at placeInside indexInside
      refine (@List.Nodup.getElem_inj_iff _ _ distinct index indexInside place placeInside).mp ?_
      · rw [List.getElem_map, List.getElem_map, (List.getElem?_eq_some_iff.mp there).2,
          (List.getElem?_eq_some_iff.mp found).2, sameElement]
    exact equal ▸ chosen
  · intro chosen
    exact ⟨id, ⟨cached, mem_elementsAt.mpr ⟨place, chosen, found⟩, hasId⟩, rfl⟩

theorem cmdMove_withdraws (server : Server) {session : ImapSession} (world : World) (set : Text)
    (uidMode : Bool) {mailbox : String} {target : FolderInfo}
    (selected : session.state = .selected) (known : folderByImapPath world.store mailbox = some target)
    (named : ∀ cached ∈ session.mails, cached.mail.id ≠ none)
    (distinct : (session.mails.map CachedMail.elementId).Nodup) :
    Withdraws server session world (if session.messagesAt (session.picked set uidMode) = [] then none
        else some (.moveMails
          ((session.messagesAt (session.picked set uidMode)).filterMap (·.mail.id)) target))
      (session.messagesBeside (session.picked set uidMode))
      (session.cmdMove server set uidMode mailbox world) := by
  have none' := @filterMap_id_eq_nil_iff (session.messagesAt (session.picked set uidMode))
    fun cached mem => by
      obtain ⟨place, -, found⟩ := mem_elementsAt.mp mem
      exact named cached (List.mem_of_getElem? found)
  have beside := filter_isMoved distinct (session.picked set uidMode) named
  rw [ImapSession.cmdMove, if_neg (not_not.mpr selected), known]
  dsimp only
  rw [ImapSession.idsAt_picked]
  by_cases nothing : session.messagesAt (session.picked set uidMode) = []
  · rw [nothing] at beside ⊢
    have all : session.messagesBeside (session.picked set uidMode) = session.mails := by
      rw [← beside]
      refine List.filter_eq_self.mpr fun cached _ => ?_
      cases found : cached.elementId <;> simp [ImapSession.isMoved, found]
    rw [all]
    refine ⟨rfl, fun message refused => ?_, fun _ => ⟨rfl, rfl⟩⟩
    cases refused
  · rw [if_neg nothing, if_neg (by rwa [List.isEmpty_iff, none'])]
    cases answer : (ImapSession.perform server (some (.moveMails ((session.messagesAt
        (session.picked set uidMode)).filterMap (·.mail.id)) target)) world).1 with
    | error message =>
      refine ⟨rfl, fun _ _ => ⟨rfl, by simp⟩, fun accepted => ?_⟩
      rw [answer] at accepted
      cases accepted
    | ok done =>
      refine ⟨rfl, fun _ refused => ?_, fun _ => ?_⟩
      · rw [answer] at refused
        cases refused
      · rw [expungeWhere_kept, beside]
        refine ⟨rfl, ?_⟩
        rw [← beside]
        exact mirror_expungeWhere _ _

/-- EXPUNGE in any view of messages with ids, and MOVE of any set to a known folder in a
view whose element ids are distinct: one request at most, with the ids of the messages in
the order of the view, and `deleteMails` only in Trash and Spam; nothing changes unless the
server accepts, and then the client is left with the new view. -/
theorem expunge_move_withdraw (server : Server) {session : ImapSession} (world : World)
    (selected : session.state = .selected)
    (named : ∀ cached ∈ session.mails, cached.mail.id ≠ none) :
    let marked := session.mails.filter CachedMail.deleted
    let ids := marked.filterMap (·.mail.id)
    (Withdraws server session world (if marked = [] then none
          else
            match session.selectedFolder with
            | some folder =>
              if folder.kind = .trash ∨ folder.kind = .spam then some (.deleteMails ids folder)
              else some (.trashMails ids)
            | none => some (.trashMails ids))
        (session.mails.filter fun cached => !cached.deleted) (session.cmdExpunge server world)) ∧
      ((session.mails.map CachedMail.elementId).Nodup →
        ∀ set uidMode mailbox target, folderByImapPath world.store mailbox = some target →
          let moved := session.messagesAt (session.picked set uidMode)
          Withdraws server session world
            (if moved = [] then none else some (.moveMails (moved.filterMap (·.mail.id)) target))
            (session.messagesBeside (session.picked set uidMode))
            (session.cmdMove server set uidMode mailbox world)) := by
  intro marked ids
  constructor
  · have withdraws := cmdExpunge_withdraws server session world selected
    rw [expungeRequest_spec named] at withdraws
    exact withdraws
  · intro distinct set uidMode mailbox target known
    exact cmdMove_withdraws server world set uidMode selected known named distinct

/-- A message of the list with an element id that messages of other lists have as well. -/
def twin (listId : String) (uid : Nat) (deleted : Bool) : CachedMail :=
  ⟨{ sampleMail "mail1" with id := some ⟨listId, "mail1"⟩ }, false, uid, deleted⟩

def archiveWorld : World := sampleWorld [sampleFolder "archive" "archived"] []

/-- The first of two messages is expunged, or the first of two is moved. -/
theorem expunge_move_withdraw_first :
    (inboxSession [twin "list1" 1 true, sampleCached "mail2" 2 false]).expungeRequest ≠ none ∧
      ((inboxSession [twin "list1" 1 true, sampleCached "mail2" 2 false]).cmdExpunge acceptingServer
        archiveWorld).2.1.mails = [sampleCached "mail2" 2 false] ∧
      ((inboxSession [twin "list1" 1 true, sampleCached "mail2" 2 false]).cmdMove acceptingServer
        ['1'] false "archive" archiveWorld).2.1.mails = [sampleCached "mail2" 2 false] := by
  obtain ⟨expunged, moved⟩ := @expunge_move_withdraw acceptingServer
    (inboxSession [twin "list1" 1 true, sampleCached "mail2" 2 false]) archiveWorld rfl (by decide)
  refine ⟨by decide, ?_, ?_⟩
  · rw [(expunged.accepted rfl).1]
    decide
  · rw [((moved (by decide) ['1'] false "archive" (sampleFolder "archive" "archived")
      (by decide +kernel)).accepted (by decide +kernel)).1]
    decide +kernel

/-- Two messages of different lists share an element id, though their ids are distinct: the
server moves the first, and both leave the view. -/
theorem move_takes_twin :
    ((inboxSession [twin "list1" 1 false, twin "list2" 2 false]).mails.map (·.mail.id)).Nodup ∧
      ((inboxSession [twin "list1" 1 false, twin "list2" 2 false]).cmdMove acceptingServer ['1'] false
        "archive" archiveWorld).1.requests =
          [.moveMails [⟨"list1", "mail1"⟩] (sampleFolder "archive" "archived")] ∧
      (inboxSession [twin "list1" 1 false, twin "list2" 2 false]).messagesBeside
        ((inboxSession [twin "list1" 1 false, twin "list2" 2 false]).picked ['1'] false) =
          [twin "list2" 2 false] ∧
      ((inboxSession [twin "list1" 1 false, twin "list2" 2 false]).cmdMove acceptingServer ['1'] false
        "archive" archiveWorld).2.1.mails = [] := by
  refine ⟨by decide, by decide +kernel, by decide +kernel, by decide +kernel⟩

end TutaBridge.Imap
