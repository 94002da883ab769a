import EntityModels.Proofs.Grammar.MarkedNames
import EntityModels.Proofs.Grammar.TypeSyntax

namespace EntityModels

open Unicode

theorem endsWord_iff {rest : List Char} : EndsWord rest ↔ isNameBoundary rest.head? := by
  refine ⟨And.right, fun h ↦ ⟨?_, h⟩⟩
  cases rest with
  | nil => rfl
  | cons x rest =>
    refine Bool.eq_false_iff.2 fun hx ↦ ?_
    rcases Bool.or_eq_true_iff.1 h with hspace | hbracket
    · cases hspace.symm.trans (isWhiteSpace_of_isIdentChar hx)
    · rw [eq_of_beq hbracket] at hx
      cases hx.symm.trans (endsWord_bracket []).1

/-- A name of a clause, and the marker in front of it if there is one. -/
structure WrittenName where
  marker : Option Char
  name : String

namespace WrittenName

def text (n : WrittenName) : List Char := n.marker.toList ++ n.name.toList

structure WellFormed (marked : Bool) (kind : IdentKind) (n : WrittenName) : Prop where
  marker : ∀ x ∈ n.marker, marked ∧ (x = '!' ∨ x = '~')
  name : kind.Names n.name

def ident (kind : IdentKind) (p : Position) (n : WrittenName) : Ident kind :=
  let first := p.after n.marker.toList
  ⟨n.name, first.spanTo (first.after n.name.toList)⟩

variable {marked : Bool} {kind : IdentKind} {n m : WrittenName}

theorem starts_of_marker {x : Char} (h : x = '!' ∨ x = '~') (kind : IdentKind) :
    kind.starts x = false := by
  rcases h with rfl | rfl <;> cases kind <;> decide

theorem WellFormed.unspaced (h : n.WellFormed marked kind) (rest : List Char) :
    Unspaced (n.text ++ rest) := by
  rw [text]
  cases hn : n.marker with
  | none => exact h.name.unspaced rest
  | some x =>
    refine .of_head ?_ (n.name.toList ++ rest)
    rcases (h.marker x hn).2 with rfl | rfl <;> decide

theorem WellFormed.unique (hn : n.WellFormed marked kind) (hm : m.WellFormed marked kind)
    {rest rest' : List Char} (hrest : EndsWord rest) (hrest' : EndsWord rest')
    (h : n.text ++ rest = m.text ++ rest') : n = m ∧ rest = rest' := by
  have hmarked {k l : WrittenName} {x : Char} {tail tail' : List Char} (hk : kind.Names k.name)
      (hl : l.WellFormed marked kind) (hx : l.marker = some x)
      (htext : k.name.toList ++ tail = x :: (l.name.toList ++ tail')) : False := by
    obtain ⟨y, ys, hy, hstarts⟩ := hk.head_append tail
    cases hy.symm.trans htext
    rw [starts_of_marker (hl.marker _ hx).2] at hstarts
    cases hstarts
  have hmarker : n.marker = m.marker := by
    rw [text, text] at h
    cases hx : n.marker with
    | none =>
      cases hy : m.marker with
      | none => rfl
      | some y =>
        rw [hx, hy] at h
        exact (hmarked hn.name hm hy (by simpa using h)).elim
    | some x =>
      cases hy : m.marker with
      | none =>
        rw [hx, hy] at h
        exact (hmarked hm.name hn hx (by simpa using h.symm)).elim
      | some y =>
        rw [hx, hy] at h
        exact congrArg some (List.cons_eq_cons.1 h).1
  rw [text, text, hmarker, List.append_assoc, List.append_assoc] at h
  have hname := List.append_cancel_left h
  obtain ⟨htake, hdrop⟩ := takeWhile_append_stop hn.name.continues hrest.1
  obtain ⟨htake', hdrop'⟩ := takeWhile_append_stop hm.name.continues hrest'.1
  rw [hname, htake'] at htake
  rw [hname, hdrop'] at hdrop
  refine ⟨?_, hdrop.symm⟩
  cases n
  cases m
  rw [mk.injEq]
  exact ⟨hmarker, String.toList_inj.1 htake.symm⟩

end WrittenName

/-- A name of a list, with the space in front of it. -/
structure ListedName extends WrittenName where
  gap : List Char

namespace ListedName

def written (n : ListedName) : List Char := n.gap ++ n.text

structure WellFormed (marked : Bool) (kind : IdentKind) (n : ListedName) : Prop where
  gap : Gap n.gap
  word : n.toWrittenName.WellFormed marked kind

def ident (kind : IdentKind) (p : Position) (n : ListedName) : Ident kind :=
  n.toWrittenName.ident kind (p.after n.gap)

def idents (kind : IdentKind) : Position → List ListedName → List (Ident kind)
  | _, [] => []
  | p, n :: ns => n.ident kind p :: idents kind (p.after n.written) ns

variable {marked : Bool} {kind : IdentKind} {n m : ListedName}

theorem WellFormed.written_ne_nil (h : n.WellFormed marked kind) : n.written ≠ [] :=
  List.append_ne_nil_of_left_ne_nil h.gap.1 _

theorem WellFormed.unique (hn : n.WellFormed marked kind) (hm : m.WellFormed marked kind)
    {rest rest' : List Char} (hrest : EndsWord rest) (hrest' : EndsWord rest')
    (h : n.written ++ rest = m.written ++ rest') : n = m ∧ rest = rest' := by
  rw [written, written, List.append_assoc, List.append_assoc] at h
  obtain ⟨htake, hdrop⟩ := takeWhile_append_stop hn.gap.2 (hn.word.unspaced rest)
  obtain ⟨htake', hdrop'⟩ := takeWhile_append_stop hm.gap.2 (hm.word.unspaced rest')
  rw [h, htake'] at htake
  rw [h, hdrop'] at hdrop
  obtain ⟨hword, hrest⟩ := hn.word.unique hm.word hrest hrest' hdrop.symm
  refine ⟨?_, hrest⟩
  cases n
  cases m
  rw [mk.injEq]
  exact ⟨hword, htake.symm⟩

end ListedName

section

variable {marked : Bool} {kind : IdentKind} {text rest rest' : List Char} {ns ms : List ListedName}
  {n : ListedName}

/-- The text begins with the names, one directly behind the other, and the last of them is complete
where the rest begins. -/
structure Lists (marked : Bool) (kind : IdentKind) (text : List Char) (ns : List ListedName)
    (rest : List Char) : Prop where
  text_eq : text = ns.flatMap ListedName.written ++ rest
  wellFormed : ∀ n ∈ ns, n.WellFormed marked kind
  ends : ns ≠ [] → isNameBoundary rest.head?

/-- The same, and there is no longer list that the text begins with. -/
structure ListsAll (marked : Bool) (kind : IdentKind) (text : List Char) (ns : List ListedName)
    (rest : List Char) : Prop extends Lists marked kind text ns rest where
  longest : ∀ ms rest', Lists marked kind text ms rest' → ms <+: ns

theorem Lists.nil (text : List Char) : Lists marked kind text [] text :=
  ⟨rfl, List.forall_mem_nil _, fun h ↦ (h rfl).elim⟩

theorem Lists.cons_iff : Lists marked kind text (n :: ns) rest ↔ ∃ behind,
    text = n.written ++ behind ∧ n.WellFormed marked kind ∧ isNameBoundary behind.head? ∧
      Lists marked kind behind ns rest := by
  constructor
  · intro h
    have hwell := List.forall_mem_cons.1 h.wellFormed
    refine ⟨ns.flatMap ListedName.written ++ rest, by rw [h.text_eq]; simp, hwell.1, ?_,
      rfl, hwell.2, fun _ ↦ h.ends (List.cons_ne_nil n ns)⟩
    cases ns with
    | nil => exact h.ends (List.cons_ne_nil n [])
    | cons next ns =>
      have hnext := (List.forall_mem_cons.1 hwell.2).1
      rw [List.flatMap_cons, ListedName.written, List.append_assoc, List.append_assoc]
      exact (hnext.gap.endsWord _).2
  · rintro ⟨behind, rfl, hn, hends, h⟩
    refine ⟨by rw [h.text_eq]; simp, List.forall_mem_cons.2 ⟨hn, h.wellFormed⟩, fun _ ↦ ?_⟩
    cases ns with
    | nil => rwa [h.text_eq] at hends
    | cons next ns => exact h.ends (List.cons_ne_nil next ns)

theorem Lists.boundary (h : Lists marked kind text ns rest) (hne : ns ≠ []) :
    isNameBoundary text.head? := by
  obtain ⟨n, ns, rfl⟩ := List.exists_cons_of_ne_nil hne
  obtain ⟨behind, rfl, hn, -⟩ := cons_iff.1 h
  rw [ListedName.written, List.append_assoc]
  exact (hn.gap.endsWord _).2

theorem ListsAll.nil (h : ∀ (n : ListedName) behind, text = n.written ++ behind →
    n.WellFormed marked kind → ¬isNameBoundary behind.head?) :
    ListsAll marked kind text [] text := by
  refine ⟨.nil text, fun ms rest' h' ↦ ?_⟩
  cases ms with
  | nil => exact List.nil_prefix
  | cons m ms =>
    obtain ⟨behind, htext, hm, hends, -⟩ := Lists.cons_iff.1 h'
    exact (h m behind htext hm hends).elim

theorem ListsAll.cons (h : ListsAll marked kind rest ns rest') (htext : text = n.written ++ rest)
    (hn : n.WellFormed marked kind) (hends : isNameBoundary rest.head?) :
    ListsAll marked kind text (n :: ns) rest' := by
  refine ⟨Lists.cons_iff.2 ⟨rest, htext, hn, hends, h.toLists⟩, fun ms behind h' ↦ ?_⟩
  cases ms with
  | nil => exact List.nil_prefix
  | cons m ms =>
    obtain ⟨behind', htext', hm, hends', h'⟩ := Lists.cons_iff.1 h'
    obtain ⟨rfl, rfl⟩ := hn.unique hm (endsWord_iff.2 hends) (endsWord_iff.2 hends')
      (htext.symm.trans htext')
    exact (List.prefix_cons_inj n).2 (h.longest ms behind h')

/-- There is one longest list. -/
theorem ListsAll.unique (h : ListsAll marked kind text ns rest)
    (h' : ListsAll marked kind text ms rest') : ns = ms ∧ rest = rest' := by
  have hns := h'.longest ns rest h.toLists
  obtain rfl := hns.eq_of_length_le (h.longest ms rest' h'.toLists).length_le
  exact ⟨rfl, List.append_cancel_left (h.text_eq.symm.trans h'.text_eq)⟩

theorem ListsAll.ne_nil (h : ListsAll marked kind text ns rest)
    (hfirst : Lists marked kind text [n] rest') : ns ≠ [] := by
  rintro rfl
  exact List.cons_ne_nil n [] (List.prefix_nil.1 (h.longest [n] rest' hfirst))

end

namespace Reader

variable {marked : Bool} {kind : IdentKind} {expected : String} {c d : Cursor}

theorem strayMarker_of_written {n : WrittenName} {rest : List Char}
    (h : n.WellFormed marked kind) (hc : c.rest = n.text ++ rest) :
    strayMarker marked c = .ok () (c.past n.marker.toList (n.name.toList ++ rest)) := by
  rw [WrittenName.text, List.append_assoc] at hc
  cases hx : n.marker with
  | none =>
    rw [hx] at hc
    have hunmarked {x : Char} (hx : x = '!' ∨ x = '~') : c.next? ≠ some x := by
      obtain ⟨y, ys, hy, hstarts⟩ := h.name.head_append rest
      intro hnext
      rw [Cursor.next?, hc] at hnext
      cases (congrArg List.head? hy).symm.trans hnext
      rw [WrittenName.starts_of_marker hx] at hstarts
      cases hstarts
    have hstays : c.past [] (n.name.toList ++ rest) = c := congrArg (Cursor.mk · c.position) hc.symm
    rw [strayMarker_of_unmarked (hunmarked (.inl rfl)) (hunmarked (.inr rfl))]
    exact congrArg _ hstays.symm
  | some x =>
    rw [hx] at hc
    obtain ⟨rfl, hmarker⟩ := h.marker x hx
    have hnext : c.next? = some x := congrArg List.head? hc
    have htail : c.rest.tail = n.name.toList ++ rest := congrArg List.tail hc
    rw [strayMarker, if_pos rfl, bind_apply, marker_apply, hnext, htail]
    rcases hmarker with rfl | rfl <;> rfl

theorem written_of_strayMarker {u : Unit} (h : strayMarker marked c = .ok u d) :
    ∃ (marker : Option Char) (rest : List Char), (∀ x ∈ marker, marked ∧ (x = '!' ∨ x = '~')) ∧
      c.rest = marker.toList ++ rest ∧ d = c.past marker.toList rest := by
  cases marked with
  | false =>
    cases h
    exact ⟨none, c.rest, fun x hx ↦ (by cases hx), rfl, rfl⟩
  | true =>
    obtain ⟨found, d', hfound, hd⟩ := bind_ok h
    cases hd
    have hsome {x : Char} (hx : x = '!' ∨ x = '~') (hnext : c.next? = some x) :
        (∀ y ∈ some x, true ∧ (y = '!' ∨ y = '~')) ∧ c.rest = x :: c.rest.tail := by
      refine ⟨fun y hy ↦ ?_, (List.cons_head?_tail hnext).symm⟩
      cases hy
      exact ⟨rfl, hx⟩
    rw [marker_apply] at hfound
    split at hfound
    · next hnext =>
      cases hfound
      obtain ⟨hx, hc⟩ := hsome (.inl rfl) hnext
      exact ⟨some '!', c.rest.tail, hx, hc, rfl⟩
    · split at hfound
      · next hnext =>
        cases hfound
        obtain ⟨hx, hc⟩ := hsome (.inr rfl) hnext
        exact ⟨some '~', c.rest.tail, hx, hc, rfl⟩
      · cases hfound
        exact ⟨none, c.rest, fun x hx ↦ (by cases hx), rfl, rfl⟩

theorem clauseIdent_ok_iff {a : Ident kind} : clauseIdent marked kind expected c = .ok a d ↔
    ∃ (n : WrittenName) (rest : List Char), c.rest = n.text ++ rest ∧ n.WellFormed marked kind ∧
      isNameBoundary rest.head? ∧ a = n.ident kind c.position ∧ d = c.past n.text rest := by
  constructor
  · intro h
    obtain ⟨u, c₁, hmarker, hname⟩ := bind_ok h
    obtain ⟨marker, rest, hx, hc, rfl⟩ := written_of_strayMarker hmarker
    obtain ⟨hrest, -, hnames, hends⟩ := written_of_ident hname
    obtain ⟨ha, hd⟩ :=
      EStateM.Result.ok.inj ((ident_exact expected hnames hends hrest).symm.trans hname)
    refine ⟨⟨marker, a.text⟩, d.rest, ?_, ⟨hx, hnames⟩, hends.2, ha.symm, ?_⟩
    · rw [hc]
      exact (congrArg _ hrest).trans (List.append_assoc _ _ _).symm
    · exact hd.symm.trans (Cursor.past_past ..)
  · rintro ⟨n, rest, hc, hn, hends, rfl, rfl⟩
    rw [clauseIdent, bind_apply, strayMarker_of_written hn hc]
    dsimp only
    rw [ident_exact expected hn.name (endsWord_iff.2 hends) rfl, Cursor.past_past]
    rfl

theorem listedIdent_ok_iff {a : Ident kind} : listedIdent marked kind expected c = .ok a d ↔
    ∃ (n : ListedName) (rest : List Char), c.rest = n.written ++ rest ∧
      n.WellFormed marked kind ∧ isNameBoundary rest.head? ∧ a = n.ident kind c.position ∧
        d = c.past n.written rest := by
  constructor
  · intro h
    obtain ⟨u, c₁, hspace, hname⟩ := bind_ok h
    obtain ⟨hs, rfl⟩ := expectSpace_ok.1 hspace
    obtain ⟨gap, body, hc, hgap, hbody⟩ := exists_gap hs
    rw [(Cursor.behind_gap hc hgap hbody).2] at hname
    obtain ⟨n, rest, hword, hn, hends, rfl, rfl⟩ := clauseIdent_ok_iff.1 hname
    refine ⟨⟨n, gap⟩, rest, ?_, ⟨hgap, hn⟩, hends, rfl, Cursor.past_past ..⟩
    rw [hc, ListedName.written, List.append_assoc]
    exact congrArg _ hword
  · rintro ⟨n, rest, hc, hn, hends, rfl, rfl⟩
    rw [ListedName.written, List.append_assoc] at hc
    obtain ⟨hs, hskip⟩ := Cursor.behind_gap hc hn.gap (hn.word.unspaced rest)
    rw [listedIdent, bind_apply, separator, expectSpace_apply, if_pos hs, hskip]
    refine clauseIdent_ok_iff.2 ⟨n.toWrittenName, rest, rfl, hn.word, hends, rfl, ?_⟩
    exact (Cursor.past_past ..).symm

theorem exists_collected (marked : Bool) (kind : IdentKind) (expected : String) (c : Cursor) :
    ∃ ns rest, ListsAll marked kind c.rest ns rest ∧
      collect (orNone (listedIdent marked kind expected))
        (listedIdent_forward marked kind expected).orNone c =
          .ok (ListedName.idents kind c.position ns)
            (c.past (ns.flatMap ListedName.written) rest) := by
  induction hk : c.rest.length using Nat.strongRecOn generalizing c with
  | ind k ih =>
    rw [collect_apply, orNone]
    cases hone : listedIdent marked kind expected c with
    | error e d =>
      refine ⟨[], c.rest, .nil fun n behind hc hn hends ↦ ?_, rfl⟩
      cases hone.symm.trans (listedIdent_ok_iff.2 ⟨n, behind, hc, hn, hends, rfl, rfl⟩)
    | ok a d =>
      obtain ⟨n, behind, hc, hn, hends, rfl, rfl⟩ := listedIdent_ok_iff.1 hone
      have hshorter : behind.length < c.rest.length := by
        rw [hc, List.length_append]
        exact Nat.lt_add_of_pos_left (List.length_pos_iff.2 hn.written_ne_nil)
      have hlt : HasCursor.offset c < HasCursor.offset (c.past n.written behind) :=
        (Cursor.LeadsTo.past hc).offset_lt hshorter
      obtain ⟨ns, rest, hall, hmore⟩ := ih _ (hk ▸ hshorter) (c.past n.written behind) rfl
      refine ⟨n :: ns, rest, hall.cons hc hn hends, ?_⟩
      simp only [if_pos hlt, hmore, ListedName.idents, List.flatMap_cons]
      rw [Cursor.past_past]
      rfl

/-- A list is read if there is a first name, and then it is the longest one that is there. -/
theorem names_ok_iff {as : List (Ident kind)} : names marked kind expected c = .ok as d ↔
    ∃ ns rest, ns ≠ [] ∧ ListsAll marked kind c.rest ns rest ∧
      as = ListedName.idents kind c.position ns ∧
        d = c.past (ns.flatMap ListedName.written) rest := by
  constructor
  · intro h
    obtain ⟨a, c₁, hfirst, hmore⟩ := bind_ok h
    obtain ⟨more, c₂, hcollect, hlist⟩ := bind_ok hmore
    obtain ⟨n, behind, hc, hn, hends, rfl, rfl⟩ := listedIdent_ok_iff.1 hfirst
    obtain ⟨ns, rest, hall, hns⟩ := exists_collected marked kind expected (c.past n.written behind)
    cases hns.symm.trans hcollect
    cases hlist
    refine ⟨n :: ns, rest, List.cons_ne_nil n ns, hall.cons hc hn hends, rfl, ?_⟩
    exact Cursor.past_past ..
  · rintro ⟨ns, rest, hne, hall, rfl, rfl⟩
    obtain ⟨n, ns, rfl⟩ := List.exists_cons_of_ne_nil hne
    obtain ⟨behind, hc, hn, hends, -⟩ := Lists.cons_iff.1 hall.toLists
    have hfirst : listedIdent marked kind expected c = .ok _ _ :=
      listedIdent_ok_iff.2 ⟨n, behind, hc, hn, hends, rfl, rfl⟩
    obtain ⟨ns', rest', hall', hns⟩ :=
      exists_collected marked kind expected (c.past n.written behind)
    obtain ⟨hns', rfl⟩ := hall.unique (hall'.cons hc hn hends)
    obtain ⟨-, rfl⟩ := List.cons_eq_cons.1 hns'
    rw [names, bind_of_ok hfirst, bind_of_ok hns, Cursor.past_past]
    rfl

theorem namesThenEnd_ok_iff {α : Type} {node : List (Ident kind) → Position → α} {a : α} :
    namesThenEnd marked kind expected node c = .ok a d ↔
      ∃ ns rest, ns ≠ [] ∧ ListsAll marked kind c.rest ns rest ∧
        a = node (ListedName.idents kind c.position ns)
          (c.position.after (ns.flatMap ListedName.written)) ∧
        d = (c.past (ns.flatMap ListedName.written) rest).nextLine := by
  constructor
  · intro h
    obtain ⟨as, c₁, hnames, hend⟩ := bind_ok h
    obtain ⟨ns, rest, hne, hall, rfl, rfl⟩ := names_ok_iff.1 hnames
    simp only [bind_apply, position, finishLine_apply] at hend
    cases hend
    exact ⟨ns, rest, hne, hall, rfl, rfl⟩
  · rintro ⟨ns, rest, hne, hall, rfl, rfl⟩
    have hnames : names marked kind expected c = .ok _ _ :=
      names_ok_iff.2 ⟨ns, rest, hne, hall, rfl, rfl⟩
    simp only [namesThenEnd, bind_of_ok hnames, bind_apply, position, finishLine_apply]
    rfl

theorem namesThenEnd_map {α β : Type} (f : α → β) (node : List (Ident kind) → Position → α) :
    (namesThenEnd marked kind expected node >>= fun a ↦ pure (f a)) =
      namesThenEnd marked kind expected fun as stop ↦ f (node as stop) := by
  simp only [namesThenEnd, bind_assoc, pure_bind]

variable {gap body tail : List Char}

theorem indented_eq {α : Type} {k : Position → Reader α} (hc : c.rest = gap ++ body)
    (hgap : Gap gap) (hbody : Unspaced body) :
    (indentation >>= fun _ ↦ position >>= k) c =
      k (c.position.after gap) ⟨body, c.position.after gap⟩ := by
  obtain ⟨hs, hskip⟩ := Cursor.behind_gap hc hgap hbody
  have hspace : indentation c = .ok () (c.past gap body) := expectSpace_ok.2 ⟨hs, hskip.symm⟩
  exact bind_of_ok hspace _

theorem exists_indented {α : Type} {k : Position → Reader α} {a : α}
    (h : (indentation >>= fun _ ↦ position >>= k) c = .ok a d) : ∃ gap body, c.rest = gap ++ body ∧
      Gap gap ∧ k (c.position.after gap) (c.past gap body) = .ok a d := by
  obtain ⟨hs, hk⟩ := indented_ok.1 h
  obtain ⟨gap, body, hc, hgap, hbody⟩ := exists_gap hs
  rw [(Cursor.behind_gap hc hgap hbody).2] at hk
  exact ⟨gap, body, hc, hgap, hk⟩

theorem keyword_eq {α : Type} {k : Reader α} (word : String) (p : Position) :
    (keyword word >>= fun _ ↦ k) ⟨word.toList ++ tail, p⟩ = k ⟨tail, p.after word.toList⟩ :=
  bind_of_ok (keyword_ok (u := ()) |>.2 ⟨tail, rfl, rfl⟩) _

theorem clauseIdent_eq {α : Type} {k : Ident kind → Reader α} {n : WrittenName}
    (hn : n.WellFormed marked kind) (hends : isNameBoundary tail.head?) (p : Position) :
    (clauseIdent marked kind expected >>= k) ⟨n.text ++ tail, p⟩ =
      k (n.ident kind p) ⟨tail, p.after n.text⟩ :=
  bind_of_ok (clauseIdent_ok_iff.2 ⟨n, tail, rfl, hn, hends, rfl, rfl⟩) k

theorem listedIdent_eq {α : Type} {k : Ident kind → Reader α} {n : ListedName}
    (hn : n.WellFormed marked kind) (hends : isNameBoundary tail.head?) (p : Position) :
    (separator expected >>= fun _ ↦ clauseIdent marked kind expected >>= k)
        ⟨n.written ++ tail, p⟩ = k (n.ident kind p) ⟨tail, p.after n.written⟩ := by
  have hread : listedIdent marked kind expected ⟨n.written ++ tail, p⟩ =
      .ok (n.ident kind p) ⟨tail, p.after n.written⟩ :=
    listedIdent_ok_iff.2 ⟨n, tail, rfl, hn, hends, rfl, rfl⟩
  obtain ⟨u, c₁, hspace, hname⟩ := bind_ok hread
  rw [bind_of_ok hspace, bind_of_ok hname]

end Reader

def MemberKind.clauses : List MemberKind := [derive, primary, foreign, unique]

/-- What stands in front of the names of a clause, behind the indentation. -/
inductive Heading where
  | derive
  | primary
  | foreign (target : ListedName)
  | unique (name : WrittenName)

namespace Heading

def kind : Heading → MemberKind
  | derive => .derive
  | primary => .primary
  | foreign _ => .foreign
  | unique _ => .unique

def names : Heading → IdentKind
  | derive => .type
  | primary => .field
  | foreign _ => .field
  | unique _ => .field

def text : Heading → List Char
  | derive => Keyword.derive.toList
  | primary => Keyword.primary.toList
  | foreign target => Keyword.foreign.toList ++ target.written
  | unique name => name.text

def WellFormed (marked : Bool) : Heading → Prop
  | derive => True
  | primary => True
  | foreign target => target.WellFormed marked .type
  | unique name => name.WellFormed marked .type

def clause (start stop : Position) : (h : Heading) → List (Ident h.names) → Member
  | derive, names => .derive ⟨names, start.spanTo stop⟩
  | primary, names => .primary ⟨names, start.spanTo stop⟩
  | foreign target, names =>
    .foreign ⟨target.ident .type (start.after Keyword.foreign.toList), names, start.spanTo stop⟩
  | unique name, names => .unique ⟨name.ident .type start, names, start.spanTo stop⟩

theorem WellFormed.unspaced {marked : Bool} {h : Heading} (hh : h.WellFormed marked)
    (rest : List Char) : Unspaced (h.text ++ rest) := by
  cases h with
  | derive => exact .of_head (by decide) _
  | primary => exact .of_head (by decide) _
  | foreign target => exact .of_head (by decide) _
  | unique name => exact WrittenName.WellFormed.unspaced hh rest

end Heading

/-- A clause as it is written, up to its last name. -/
structure WrittenClause where
  indentation : List Char
  heading : Heading
  names : List ListedName

namespace WrittenClause

def listed (w : WrittenClause) : List Char := w.names.flatMap ListedName.written

def text (w : WrittenClause) : List Char := w.indentation ++ (w.heading.text ++ w.listed)

/-- A text begins with the clause, and the rest with no other name for it. -/
structure Begins (marked : Bool) (w : WrittenClause) (text rest : List Char) : Prop where
  text_eq : text = w.text ++ rest
  indentation : Gap w.indentation
  heading : w.heading.WellFormed marked
  names : ListsAll marked w.heading.names (w.listed ++ rest) w.names rest
  names_ne_nil : w.names ≠ []

def member (w : WrittenClause) (p : Position) : Member :=
  let start := p.after w.indentation
  let first := start.after w.heading.text
  w.heading.clause start (first.after w.listed) (ListedName.idents w.heading.names first w.names)

variable {options : Options} {c d : Cursor} {w : WrittenClause} {m : Member} {rest : List Char}

theorem reader_of_heading {gap tail : List Char} {heading : Heading}
    (hc : c.rest = gap ++ (heading.text ++ tail)) (hgap : Gap gap)
    (hheading : heading.WellFormed options.markedNames) (hends : isNameBoundary tail.head?) :
    ∃ expected, heading.kind.reader options c =
      Reader.namesThenEnd options.markedNames heading.names expected
        (fun as stop ↦ heading.clause (c.position.after gap) stop as)
          ⟨tail, (c.position.after gap).after heading.text⟩ := by
  have hbody := hheading.unspaced tail
  -- a clause becomes a member at the end of its reading
  have hmember {α : Type} {r : Reader α} {kind : IdentKind} {expected : String} {mid : Cursor}
      {node : List (Ident kind) → Position → α} (f : α → Member)
      (hr : r c = Reader.namesThenEnd options.markedNames kind expected node mid) :
      (r >>= fun a ↦ pure (f a)) c = Reader.namesThenEnd options.markedNames kind expected
        (fun as stop ↦ f (node as stop)) mid := by
    rw [← Reader.namesThenEnd_map, bind_apply, bind_apply, hr]
  cases heading with
  | derive =>
    exact ⟨_, hmember .derive ((Reader.indented_eq hc hgap hbody).trans
      (Reader.keyword_eq Keyword.derive _))⟩
  | primary =>
    exact ⟨_, hmember .primary ((Reader.indented_eq hc hgap hbody).trans
      (Reader.keyword_eq Keyword.primary _))⟩
  | foreign target =>
    have htext : Heading.text (.foreign target) ++ tail =
      Keyword.foreign.toList ++ (target.written ++ tail) := List.append_assoc ..
    rw [htext] at hc hbody
    rw [Heading.text, Position.after_append]
    exact ⟨_, hmember .foreign (((Reader.indented_eq hc hgap hbody).trans
      (Reader.keyword_eq Keyword.foreign _)).trans (Reader.listedIdent_eq hheading hends _))⟩
  | unique name =>
    exact ⟨_, hmember .unique ((Reader.indented_eq hc hgap hbody).trans
      (Reader.clauseIdent_eq hheading hends _))⟩

/-- Whatever is read as a clause begins with the heading of one, and names follow it. -/
theorem exists_heading {kind : MemberKind} (hkind : kind ∈ MemberKind.clauses)
    (h : kind.reader options c = .ok m d) : ∃ (gap : List Char) (heading : Heading)
      (tail : List Char), heading.kind = kind ∧ Gap gap ∧ c.rest = gap ++ (heading.text ++ tail) ∧
        heading.WellFormed options.markedNames ∧ isNameBoundary tail.head? := by
  have hnames {α : Type} {k : IdentKind} {expected : String} {mid e : Cursor} {a : α}
      {node : List (Ident k) → Position → α}
      (hr : Reader.namesThenEnd options.markedNames k expected node mid = .ok a e) :
      isNameBoundary mid.rest.head? := by
    obtain ⟨ns, rest, hne, hall, -⟩ := Reader.namesThenEnd_ok_iff.1 hr
    exact hall.toLists.boundary hne
  cases kind with
  | derive =>
    obtain ⟨clause, d', hread, -⟩ := bind_ok h
    obtain ⟨gap, body, hc, hgap, hk⟩ := Reader.exists_indented hread
    obtain ⟨u, c₁, hword, hk⟩ := bind_ok hk
    obtain ⟨tail, rfl, rfl⟩ := Reader.keyword_ok.1 hword
    exact ⟨gap, .derive, tail, rfl, hgap, hc, trivial, hnames hk⟩
  | primary =>
    obtain ⟨clause, d', hread, -⟩ := bind_ok h
    obtain ⟨gap, body, hc, hgap, hk⟩ := Reader.exists_indented hread
    obtain ⟨u, c₁, hword, hk⟩ := bind_ok hk
    obtain ⟨tail, rfl, rfl⟩ := Reader.keyword_ok.1 hword
    exact ⟨gap, .primary, tail, rfl, hgap, hc, trivial, hnames hk⟩
  | foreign =>
    obtain ⟨clause, d', hread, -⟩ := bind_ok h
    obtain ⟨gap, body, hc, hgap, hk⟩ := Reader.exists_indented hread
    obtain ⟨u, c₁, hword, hk⟩ := bind_ok hk
    obtain ⟨behind, rfl, rfl⟩ := Reader.keyword_ok.1 hword
    obtain ⟨v, c₂, hspace, hk⟩ := bind_ok hk
    obtain ⟨target, c₃, hname, hk⟩ := bind_ok hk
    obtain ⟨n, tail, hbehind, hn, -, -, rfl⟩ :=
      Reader.listedIdent_ok_iff.1 ((bind_of_ok hspace _).trans hname)
    refine ⟨gap, .foreign n, tail, rfl, hgap, ?_, hn, hnames hk⟩
    rw [hc, Heading.text, List.append_assoc]
    exact congrArg (fun text ↦ gap ++ (Keyword.foreign.toList ++ text)) hbehind
  | unique =>
    obtain ⟨clause, d', hread, -⟩ := bind_ok h
    obtain ⟨gap, body, hc, hgap, hk⟩ := Reader.exists_indented hread
    obtain ⟨name, c₁, hname, hk⟩ := bind_ok hk
    obtain ⟨n, tail, rfl, hn, -, -, rfl⟩ := Reader.clauseIdent_ok_iff.1 hname
    exact ⟨gap, .unique n, tail, rfl, hgap, hc, hn, hnames hk⟩
  | field | blank | comment => simp [MemberKind.clauses] at hkind

theorem past_text (w : WrittenClause) (c : Cursor) (mid rest : List Char) :
    (Cursor.mk mid ((c.position.after w.indentation).after w.heading.text)).past w.listed rest =
      c.past w.text rest := by
  simp only [Cursor.past, text, Position.after_append]

theorem reader_ok_iff {kind : MemberKind} (hkind : kind ∈ MemberKind.clauses) :
    kind.reader options c = .ok m d ↔ ∃ w rest, w.heading.kind = kind ∧
      Begins options.markedNames w c.rest rest ∧ m = w.member c.position ∧
        d = (c.past w.text rest).nextLine := by
  constructor
  · intro h
    obtain ⟨gap, heading, tail, rfl, hgap, hc, hheading, hends⟩ := exists_heading hkind h
    obtain ⟨expected, hread⟩ := reader_of_heading hc hgap hheading hends
    obtain ⟨ns, rest, hne, hall, rfl, rfl⟩ := Reader.namesThenEnd_ok_iff.1 (hread.symm.trans h)
    obtain rfl : tail = ns.flatMap ListedName.written ++ rest := hall.text_eq
    refine ⟨⟨gap, heading, ns⟩, rest, rfl, ⟨?_, hgap, hheading, hall, hne⟩, rfl, ?_⟩
    · rw [hc, text, List.append_assoc, List.append_assoc]
      rfl
    · exact congrArg Cursor.nextLine (past_text ⟨gap, heading, ns⟩ c _ rest)
  · rintro ⟨w, rest, rfl, h, rfl, rfl⟩
    have hc : c.rest = w.indentation ++ (w.heading.text ++ (w.listed ++ rest)) := by
      rw [h.text_eq, text, List.append_assoc, List.append_assoc]
    have hends := h.names.toLists.boundary h.names_ne_nil
    obtain ⟨expected, hread⟩ := reader_of_heading hc h.indentation h.heading hends
    rw [hread, ← w.past_text c (w.listed ++ rest)]
    exact Reader.namesThenEnd_ok_iff.2 ⟨w.names, rest, h.names_ne_nil, h.names, rfl, rfl⟩

end WrittenClause

namespace MemberKind

/-- A clause is read wherever a name follows its heading. Its names are all that follow, its span
ends with the last of them, and its reading with the line. -/
theorem clauses_exact {kind : MemberKind} (hkind : kind ∈ clauses) (options : Options)
    (c : Cursor) :
    ((∃ m d, kind.reader options c = .ok m d) ↔
      ∃ (gap : List Char) (heading : Heading) (first : ListedName) (rest : List Char),
        heading.kind = kind ∧ c.rest = gap ++ (heading.text ++ (first.written ++ rest)) ∧
          Gap gap ∧ heading.WellFormed options.markedNames ∧
            first.WellFormed options.markedNames heading.names ∧ isNameBoundary rest.head?) ∧
    (∀ m d, kind.reader options c = .ok m d ↔ ∃ (w : WrittenClause) (rest : List Char),
      w.heading.kind = kind ∧ w.Begins options.markedNames c.rest rest ∧
        m = w.member c.position ∧ d = (c.past w.text rest).nextLine) ∧
    ∀ e d, kind.reader options c = .error e d → e.fatal = false := by
  refine ⟨⟨?_, ?_⟩, fun m d ↦ WrittenClause.reader_ok_iff hkind, fun e d h ↦ ?_⟩
  · rintro ⟨m, d, h⟩
    obtain ⟨w, rest, hw, hbegins, -⟩ := (WrittenClause.reader_ok_iff hkind).1 h
    obtain ⟨first, more, hnames⟩ := List.exists_cons_of_ne_nil hbegins.names_ne_nil
    have hlists := hbegins.names.toLists
    rw [hnames] at hlists
    obtain ⟨behind, hlisted, hfirst, hends, -⟩ := Lists.cons_iff.1 hlists
    refine ⟨w.indentation, w.heading, first, behind, hw, ?_, hbegins.indentation, hbegins.heading,
      hfirst, hends⟩
    rw [hbegins.text_eq, WrittenClause.text, List.append_assoc, List.append_assoc, hlisted]
  · rintro ⟨gap, heading, first, rest, rfl, hc, hgap, hheading, hfirst, hends⟩
    have hone : Lists options.markedNames heading.names (first.written ++ rest) [first] rest :=
      Lists.cons_iff.2 ⟨rest, rfl, hfirst, hends, .nil rest⟩
    obtain ⟨expected, hread⟩ :=
      WrittenClause.reader_of_heading hc hgap hheading (hone.boundary (List.cons_ne_nil first []))
    obtain ⟨ns, behind, hall, -⟩ := Reader.exists_collected options.markedNames heading.names
      expected ⟨first.written ++ rest, (c.position.after gap).after heading.text⟩
    exact ⟨_, _, hread.trans (Reader.namesThenEnd_ok_iff.2
      ⟨ns, behind, hall.ne_nil hone, hall, rfl, rfl⟩)⟩
  · exact reader_mild options (by rintro rfl; simp [clauses] at hkind) c e d h

theorem clause_of_foreign :
    let text := "  Foreign !A b ~c , d\n".toList
    let key : Foreign := ⟨⟨"A", ⟨1, 12⟩, ⟨1, 13⟩⟩,
      [⟨"b", ⟨1, 14⟩, ⟨1, 15⟩⟩, ⟨"c", ⟨1, 17⟩, ⟨1, 18⟩⟩], ⟨1, 3⟩, ⟨1, 18⟩⟩
    foreign ∈ clauses ∧ ∃ (w : WrittenClause) (rest : List Char), w.heading.kind = foreign ∧
      w.Begins true text rest ∧ .foreign key = w.member .start := by
  intro text key
  have hkind : foreign ∈ clauses := by decide
  have hread : (foreign.reader (default : Options).marked).value? (.ofText text) =
      some (.foreign key) := by decide +kernel
  obtain ⟨d, hd⟩ := Reader.ok_of_value? hread
  obtain ⟨w, rest, hw, hbegins, hm, -⟩ :=
    ((clauses_exact hkind (default : Options).marked (.ofText text)).2.1 _ d).1 hd
  exact ⟨hkind, w, rest, hw, hbegins, hm⟩

end MemberKind

end EntityModels
