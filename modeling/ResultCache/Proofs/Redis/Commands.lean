import ResultCache.Proofs.Redis.Servers

/-!
# The commands of a scan and of a clear

A handle on a line whose replies are laid down in advance, whatever they are.
-/

namespace ResultCache.Redis

variable {α : Type}

abbrev Answer := Except CallFault Reply

/-- A line with the answers that are still to come and the commands that have been sent. -/
structure Line where
  answers : List Answer
  sent : List (List String)

/-- Every command takes the next answer. After the last one the line is dead. -/
def Line.call : Answering Line
  | words, ⟨[], sent⟩ => (.error (.disconnected "the line is dead"), ⟨[], sent ++ [words]⟩)
  | words, ⟨answer :: answers, sent⟩ => (answer, ⟨answers, sent ++ [words]⟩)

def Line.server (patience : Nat) : Server Line := ⟨Line.call, patience⟩

/-- The answer is read as the given page of keys, with the cursor to go on from. -/
def Answer.Shows (answer : Answer) (page : UInt64 × List String) : Prop :=
  answer.bind Reply.page = .ok page

/-- The answer is read as a count of deleted keys. -/
def Answer.Counts (answer : Answer) : Prop := ∃ n, answer.bind Reply.int64 = .ok n

namespace Scope

variable {patience : Nat} {answers rest : List Answer} {sent : List (List String)}

private theorem runOn_ask_line (words : List String) (read : Reply → Except CallFault α)
    (failure : CallFault → CacheFault) (answer : Answer) :
    (ask (Line.server patience) words read failure).runOn ⟨answer :: rest, sent⟩ =
      ((answer.bind read).mapError fun fault => .cache (failure fault),
        ⟨rest, sent ++ [words]⟩) := by
  rw [ask, Action.runOn_ofFunction]
  cases answer <;> rfl

/-- A scan that is shown some pages with cursors to go on from, and then one answer more that ends
it: the last page, or a fault. -/
theorem runOn_scanPages_line {pattern : String} {going : List (UInt64 × List String)}
    (shows : List.Forall₂ Answer.Shows answers going) (goes_on : ∀ page ∈ going, page.1 ≠ 0)
    {answer : Answer} {last : Except CallFault (List String)}
    (hlast : answer.bind Reply.page = last.map (0, ·)) {turns : Nat}
    (patient : going.length < turns) (cursor : UInt64) (sent : List (List String)) :
    (scanPages (Line.server patience) pattern turns cursor).runOn
        ⟨answers ++ answer :: rest, sent⟩ =
      ((last.map (going.flatMap Prod.snd ++ ·)).mapError fun fault =>
          .cache (.redisScan pattern fault),
        ⟨rest, sent ++ (cursor :: going.map Prod.fst).map (scanWords pattern)⟩) := by
  obtain ⟨n, rfl⟩ := Nat.exists_eq_add_of_lt patient
  induction shows generalizing cursor sent with
  | nil =>
    rw [List.length_nil, Nat.zero_add, scanPages_succ, Action.runOn_bind, List.nil_append,
      runOn_ask_line, hlast]
    cases last with
    | error fault => rfl
    | ok keys => rfl
  | @cons shown page answers going hpage _ ih =>
    have hrest := ih (fun other ho => goes_on other (List.mem_cons_of_mem page ho)) page.1
      (sent ++ [scanWords pattern cursor]) (by omega)
    have hturns : (page :: going).length + n + 1 = (going.length + n + 1) + 1 := by
      rw [List.length_cons]
      omega
    rw [hturns, scanPages_succ, Action.runOn_bind, List.cons_append, runOn_ask_line, hpage]
    simp only [Except.mapError, if_neg (goes_on page List.mem_cons_self)]
    rw [Action.runOn_bind, hrest]
    cases last with
    | error fault => simp [Except.map, Except.mapError]
    | ok keys => simp [Except.map, Except.mapError]

private theorem runOn_deleteAll_cons (keys : List String) (pieces : List (List String))
    (answer : Answer) (sent : List (List String)) :
    (deleteAll (Line.server patience) (keys :: pieces)).runOn ⟨answer :: rest, sent⟩ =
      match answer.bind Reply.int64 with
      | .ok _ => (deleteAll (Line.server patience) pieces).runOn ⟨rest, sent ++ ["DEL" :: keys]⟩
      | .error fault =>
        (.error (.cache (.redisDelete fault)), ⟨rest, sent ++ ["DEL" :: keys]⟩) := by
  have hcons : deleteAll (Line.server patience) (keys :: pieces) =
      ((fun _ => ()) <$> ask (Line.server patience) ("DEL" :: keys) Reply.int64 .redisDelete) >>=
        fun _ => deleteAll (Line.server patience) pieces := rfl
  rw [hcons, Action.runOn_bind, Action.runOn_map, runOn_ask_line]
  cases answer.bind Reply.int64 <;> rfl

private theorem runOn_deleteAll_append {pieces : List (List String)} {deleted : List Answer}
    (hlength : deleted.length = pieces.length) (counts : ∀ count ∈ deleted, count.Counts)
    (more : List (List String)) (sent : List (List String)) :
    (deleteAll (Line.server patience) (pieces ++ more)).runOn ⟨deleted ++ rest, sent⟩ =
      (deleteAll (Line.server patience) more).runOn
        ⟨rest, sent ++ pieces.map ("DEL" :: ·)⟩ := by
  induction pieces generalizing deleted sent with
  | nil =>
    obtain rfl := List.eq_nil_of_length_eq_zero hlength
    simp
  | cons keys pieces ih =>
    cases deleted with
    | nil => cases hlength
    | cons count deleted =>
      obtain ⟨n, hcount⟩ := counts count List.mem_cons_self
      have hrest := ih (Nat.succ.inj hlength)
        (fun other ho => counts other (List.mem_cons_of_mem count ho)) (sent ++ ["DEL" :: keys])
      rw [List.cons_append, List.cons_append, runOn_deleteAll_cons, hcount]
      simpa using hrest

theorem runOn_deleteAll_of_counts {pieces : List (List String)} {deleted : List Answer}
    (hlength : deleted.length = pieces.length) (counts : ∀ count ∈ deleted, count.Counts)
    (rest : List Answer) (sent : List (List String)) :
    (deleteAll (Line.server patience) pieces).runOn ⟨deleted ++ rest, sent⟩ =
      (.ok (), ⟨rest, sent ++ pieces.map ("DEL" :: ·)⟩) := by
  rw [← List.append_nil pieces, runOn_deleteAll_append hlength counts, List.append_nil]
  rfl

theorem runOn_deleteAll_of_fault {pieces : List (List String)} {deleted : List Answer}
    (hlength : deleted.length < pieces.length) (counts : ∀ count ∈ deleted, count.Counts)
    {bad : Answer} {fault : CallFault} (hbad : bad.bind Reply.int64 = .error fault)
    (rest : List Answer) (sent : List (List String)) :
    (deleteAll (Line.server patience) pieces).runOn ⟨deleted ++ bad :: rest, sent⟩ =
      (.error (.cache (.redisDelete fault)),
        ⟨rest, sent ++ (pieces.take (deleted.length + 1)).map ("DEL" :: ·)⟩) := by
  have hsplit : pieces = pieces.take deleted.length ++
      pieces[deleted.length] :: pieces.drop (deleted.length + 1) := by
    rw [← List.drop_eq_getElem_cons hlength, List.take_append_drop]
  have htake : deleted.length = (pieces.take deleted.length).length := by
    rw [List.length_take, Nat.min_eq_left hlength.le]
  rw [List.take_add_one, List.getElem?_eq_getElem hlength]
  nth_rewrite 1 [hsplit]
  rw [runOn_deleteAll_append htake counts, runOn_deleteAll_cons, hbad, List.map_append,
    ← List.append_assoc]
  rfl

end Scope

/-- A list cut into pieces of one length, the last of which may be shorter. -/
structure InPieces (size : Nat) (xs : List α) (pieces : List (List α)) : Prop where
  flatten : pieces.flatten = xs
  nonempty : ∀ piece ∈ pieces, piece ≠ []
  short : ∀ piece ∈ pieces, piece.length ≤ size
  full : ∀ piece ∈ pieces.dropLast, piece.length = size
  none : xs = [] → pieces = []

theorem inPieces_chunks {size : Nat} (hsize : 0 < size) (xs : List α) :
    InPieces size xs (chunks size xs) where
  flatten := flatten_chunks size xs
  nonempty _ := ne_nil_of_mem_chunks
  short _ := length_le_of_mem_chunks hsize
  full _ := length_of_mem_dropLast_chunks hsize
  none h := by rw [h, chunks_nil]

namespace Scope

/-- How a handle goes on where a line first shows some pages with cursors to go on from. By then the
scan has sent a command for each of the pages and one more: from the cursor zero, and then each from
the cursor of the page before it. -/
structure GoesOn (scope : Scope) (patience : Nat) (going : List (UInt64 × List String))
    (answers : List Answer) (sent scanned : List (List String)) : Prop where
  /-- After a page with the cursor zero the size is the number of keys on all pages. -/
  counted : ∀ (answer : Answer) last rest, answer.Shows (0, last) →
    (scope.size (Line.server patience)).runOn ⟨answers ++ answer :: rest, sent⟩ =
      (.ok (going.flatMap Prod.snd ++ last).length, ⟨rest, scanned⟩)
  /-- After a page with the cursor zero a clear sends the keys of all pages, in pieces of five
  hundred. A piece that is not answered by a count is the last that is sent. -/
  cleared : ∀ (answer : Answer) last, answer.Shows (0, last) →
    let pieces := chunks 500 (going.flatMap Prod.snd ++ last)
    InPieces 500 (going.flatMap Prod.snd ++ last) pieces ∧
      (∀ (deleted : List Answer) rest, deleted.length = pieces.length →
        (∀ count ∈ deleted, count.Counts) →
        (scope.clear (Line.server patience)).runOn
            ⟨answers ++ answer :: (deleted ++ rest), sent⟩ =
          (.ok (), ⟨rest, scanned ++ pieces.map ("DEL" :: ·)⟩)) ∧
      ∀ (deleted : List Answer) (bad : Answer) fault rest, deleted.length < pieces.length →
        (∀ count ∈ deleted, count.Counts) → bad.bind Reply.int64 = .error fault →
        (scope.clear (Line.server patience)).runOn
            ⟨answers ++ answer :: (deleted ++ bad :: rest), sent⟩ =
          (.error (.cache (.redisDelete fault)),
            ⟨rest, scanned ++ (pieces.take (deleted.length + 1)).map ("DEL" :: ·)⟩)
  /-- An answer that is no page ends both with the fault, and nothing is deleted. -/
  refused : ∀ (bad : Answer) fault rest, bad.bind Reply.page = .error fault →
    let outcome := Error.cache (.redisScan (scope.keyOf "*") fault)
    (scope.size (Line.server patience)).runOn ⟨answers ++ bad :: rest, sent⟩ =
        (.error outcome, ⟨rest, scanned⟩) ∧
      (scope.clear (Line.server patience)).runOn ⟨answers ++ bad :: rest, sent⟩ =
        (.error outcome, ⟨rest, scanned⟩)

/-- A handle with a prefix or a namespace follows the pages that a line shows it, however many keys
they hold, and sends nothing but what the pages call for. A handle with neither sends a single
command and takes a single answer. -/
theorem goesOn_of_pages {scope : Scope} (hscoped : scope.isScoped = true)
    {going : List (UInt64 × List String)} (shows : List.Forall₂ Answer.Shows answers going)
    (goes_on : ∀ page ∈ going, page.1 ≠ 0) (patient : going.length < patience)
    (sent : List (List String)) :
    scope.GoesOn patience going answers sent
        (sent ++ (0 :: going.map Prod.fst).map (scanWords (scope.keyOf "*"))) ∧
      ∀ whole : Scope, whole.isScoped = false → ∀ (answer : Answer) rest,
        (whole.size (Line.server patience)).runOn ⟨answer :: rest, sent⟩ =
            ((answer.bind fun reply => reply.uint64.map UInt64.toNat).mapError fun fault =>
              .cache (.redisSize fault), ⟨rest, sent ++ [["DBSIZE"]]⟩) ∧
          (whole.clear (Line.server patience)).runOn ⟨answer :: rest, sent⟩ =
            ((answer.bind Reply.ignored).mapError fun fault => .cache (.redisFlush fault),
              ⟨rest, sent ++ [["FLUSHDB"]]⟩) := by
  have hscan (answer : Answer) (last : Except CallFault (List String)) (rest : List Answer)
      (hlast : answer.bind Reply.page = last.map (0, ·)) :
      (scan (Line.server patience) scope).runOn ⟨answers ++ answer :: rest, sent⟩ =
        ((last.map (going.flatMap Prod.snd ++ ·)).mapError fun fault =>
            .cache (.redisScan (scope.keyOf "*") fault),
          ⟨rest, sent ++ (0 :: going.map Prod.fst).map (scanWords (scope.keyOf "*"))⟩) :=
    runOn_scanPages_line shows goes_on hlast patient 0 sent
  have hsize := size_of_isScoped (Line.server patience) hscoped
  have hclear := clear_of_isScoped (Line.server patience) hscoped
  refine ⟨⟨fun answer last rest hshows => ?_, fun answer last hshows => ?_,
    fun bad fault rest hbad => ?_⟩, fun whole hwhole answer rest => ?_⟩
  · rw [hsize, Action.runOn_map, hscan answer (.ok last) rest hshows]
    rfl
  · have hkeys (rest : List Answer) := hscan answer (.ok last) rest hshows
    intro pieces
    refine ⟨inPieces_chunks (by decide) _, fun deleted rest hlength counts => ?_,
      fun deleted bad fault rest hlength counts hbad => ?_⟩
    · rw [hclear, Action.runOn_bind, hkeys]
      exact runOn_deleteAll_of_counts hlength counts rest _
    · rw [hclear, Action.runOn_bind, hkeys]
      exact runOn_deleteAll_of_fault hlength counts hbad rest _
  · refine ⟨?_, ?_⟩
    · rw [hsize, Action.runOn_map, hscan bad (.error fault) rest hbad]
      rfl
    · rw [hclear, Action.runOn_bind, hscan bad (.error fault) rest hbad]
      rfl
  · refine ⟨?_, ?_⟩
    · rw [size, if_neg (by rw [hwhole]; exact Bool.false_ne_true), runOn_ask_line]
    · rw [clear, if_neg (by rw [hwhole]; exact Bool.false_ne_true), runOn_ask_line]

/-- Three pages, the first of them empty: their keys are counted, and sent in one piece. -/
theorem goesOn_of_three_pages :
    let users : Scope := namespaced ⟨some "app", none, 60⟩ "users"
    let pages : List Answer := [.ok (.ofPage 7 []),
      .ok (.array [.int 5, .array [.status "app:users:a", .bulk "app:users:b"]]),
      .ok (.ofPage 0 ["app:users:a"])]
    let scanned : List (List String) :=
      [["SCAN", "0", "MATCH", "app:users:*", "COUNT", "1000"],
        ["SCAN", "7", "MATCH", "app:users:*", "COUNT", "1000"],
        ["SCAN", "5", "MATCH", "app:users:*", "COUNT", "1000"]]
    let delete := ["DEL", "app:users:a", "app:users:b", "app:users:a"]
    (users.size (Line.server 3)).runOn ⟨pages, []⟩ = (.ok 3, ⟨[], scanned⟩) ∧
      (users.clear (Line.server 3)).runOn ⟨pages ++ [.ok (.int 2)], []⟩ =
        (.ok (), ⟨[], scanned ++ [delete]⟩) ∧
      (users.clear (Line.server 3)).runOn ⟨pages ++ [.ok (.failure "ERR busy")], []⟩ =
        (.error (.cache (.redisDelete (.signalled "ERR busy"))), ⟨[], scanned ++ [delete]⟩) := by
  intro users pages scanned delete
  have shows : List.Forall₂ Answer.Shows (pages.take 2)
      [(7, []), (5, ["app:users:a", "app:users:b"])] := by
    refine .cons ?_ (.cons rfl .nil)
    exact Reply.page_ofPage 7 []
  have goes_on : ∀ page ∈ [((7 : UInt64), ([] : List String)),
      (5, ["app:users:a", "app:users:b"])], page.1 ≠ 0 := by decide
  have hlast : Answer.Shows (.ok (.ofPage 0 ["app:users:a"])) (0, ["app:users:a"]) :=
    Reply.page_ofPage 0 _
  have patient : [((7 : UInt64), ([] : List String)),
      (5, ["app:users:a", "app:users:b"])].length < 3 := by decide
  have hscoped : users.isScoped = true := rfl
  obtain ⟨follows, -⟩ := goesOn_of_pages hscoped shows goes_on patient []
  have hpieces : chunks 500 ["app:users:a", "app:users:b", "app:users:a"] =
      [["app:users:a", "app:users:b", "app:users:a"]] := by simp [chunks]
  obtain ⟨-, hcleared, hstopped⟩ := follows.cleared _ _ hlast
  simp only [List.flatMap_cons, List.flatMap_nil, List.nil_append, List.append_nil,
    List.cons_append, hpieces] at hcleared hstopped
  have hone : ∀ count ∈ ([.ok (.int 2)] : List Answer), Answer.Counts count :=
    List.forall_mem_singleton.2 ⟨2, rfl⟩
  refine ⟨follows.counted _ _ [] hlast, hcleared [.ok (.int 2)] [] rfl hone, ?_⟩
  exact hstopped [] (.ok (.failure "ERR busy")) (.signalled "ERR busy") [] Nat.one_pos
    (List.forall_mem_nil _) rfl

end Scope
end ResultCache.Redis
