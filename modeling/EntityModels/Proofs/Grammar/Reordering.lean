import EntityModels.Proofs.Grammar.Disjointness

namespace EntityModels

namespace MemberKind

variable {options : Options} {c : Cursor}

/-- What a kind settles about the line at the cursor, if it settles anything. -/
def settled (options : Options) (c : Cursor) (kind : MemberKind) :
    Option (Except Failure (Member × Cursor)) :=
  (kind.reader options).settled kind.mayStart c

theorem settled_ok {kind : MemberKind} {m : Member} {d : Cursor}
    (h : kind.settled options c = some (.ok (m, d))) : kind.reader options c = .ok m d := by
  unfold settled Reader.settled at h
  split at h
  · split at h
    · next hr =>
      cases h
      exact hr
    · split at h <;> cases h
  · cases h

theorem settled_error_iff {kind : MemberKind} {e : Failure} :
    kind.settled options c = some (.error e) ↔
      kind = field ∧ e.fatal ∧ ∃ d, Field.reader c = .error e d := by
  constructor
  · intro h
    unfold settled Reader.settled at h
    split at h
    · split at h
      · cases h
      · next e' d hr =>
        split at h
        · next hf =>
          cases h
          have hfield : kind = field := by
            by_contra hk
            rw [kind.reader_mild options hk c e d hr] at hf
            cases hf
          subst hfield
          exact ⟨rfl, hf, d, bind_pure_error hr⟩
        · cases h
    · cases h
  · rintro ⟨rfl, he, d, hr⟩
    have hreader : field.reader options c = .error e d := by
      rw [reader, bind_apply, hr]
    have hstart : field.mayStart c.rest := (Field.named_of_fatal hr he).mayStart
    rw [settled, Reader.settled, if_pos hstart, hreader]
    exact if_pos he

/-- What settles a line has read it, or has found a field that cannot be given up. -/
theorem settled_cases {kind : MemberKind} (h : kind.settled options c ≠ none) :
    (∃ m d, kind.reader options c = .ok m d) ∨ (kind = field ∧ Field.Named c) := by
  obtain ⟨found, hfound⟩ := Option.ne_none_iff_exists'.1 h
  cases found with
  | ok found => exact .inl ⟨found.1, found.2, settled_ok hfound⟩
  | error e =>
    obtain ⟨rfl, he, d, hr⟩ := settled_error_iff.1 hfound
    exact .inr ⟨rfl, Field.named_of_fatal hr he⟩

theorem eq_of_settled {k l : MemberKind} (hk : k.settled options c ≠ none)
    (hl : l.settled options c ≠ none) :
    k = l ∨ (k = primary ∧ l = unique) ∨ (k = unique ∧ l = primary) := by
  rcases settled_cases hk with ⟨m, d, hm⟩ | ⟨rfl, hnamed⟩
  · rcases settled_cases hl with ⟨n, e, hn⟩ | ⟨rfl, hnamed⟩
    · exact eq_of_ok hm hn
    · exact .inl (eq_field_of_named hnamed hm)
  · rcases settled_cases hl with ⟨n, e, hn⟩ | ⟨rfl, -⟩
    · exact .inl (eq_field_of_named hnamed hn).symm
    · exact .inl rfl

theorem not_mem_before {before after : List MemberKind} {k l : MemberKind}
    (h : (before ++ k :: after).Nodup) (hkl : [k, l].Sublist (before ++ k :: after)) :
    l ∉ before := by
  intro hl
  rw [List.nodup_append] at h
  obtain ⟨-, -, hapart⟩ := h
  obtain ⟨front, back, heq, hfront, hback⟩ := List.sublist_append_iff.1 hkl
  cases front with
  | nil =>
    obtain rfl : [k, l] = back := heq
    exact hapart l hl l (hback.subset (List.mem_cons_of_mem k List.mem_cons_self)) rfl
  | cons x front =>
    obtain ⟨rfl, -⟩ := List.cons_eq_cons.1 heq
    exact hapart k (hfront.subset List.mem_cons_self) k List.mem_cons_self rfl

/-- The kind that settles a line does so wherever it stands in the list, with primary keys counted
before uniqueness constraints. -/
theorem findSome?_settled {kinds : List MemberKind} (hnodup : kinds.Nodup)
    (horder : [primary, unique].Sublist kinds) {k : MemberKind} (hk : k ∈ kinds)
    (hfirst : k = unique → primary.settled options c = none)
    {found : Except Failure (Member × Cursor)} (hfound : k.settled options c = some found) :
    kinds.findSome? (settled options c) = some found := by
  obtain ⟨before, after, rfl⟩ := List.append_of_mem hk
  have hbefore : before.findSome? (settled options c) = none := by
    refine List.findSome?_eq_none_iff.2 fun l hl ↦ ?_
    by_contra hsettled
    rcases eq_of_settled (by rw [hfound]; simp) hsettled with rfl | ⟨rfl, rfl⟩ | ⟨rfl, rfl⟩
    · exact (List.nodup_append.1 hnodup).2.2 k hl k List.mem_cons_self rfl
    · exact not_mem_before hnodup horder hl
    · exact hsettled (hfirst rfl)
  rw [List.findSome?_append, hbefore, List.findSome?_cons, hfound]
  rfl

theorem findSome?_settled_eq {kinds : List MemberKind} (hperm : kinds.Perm all)
    (horder : [primary, unique].Sublist kinds) :
    kinds.findSome? (settled options c) = all.findSome? (settled options c) := by
  have hnodup : kinds.Nodup := hperm.nodup_iff.2 (by decide)
  have hwritten : [primary, unique].Sublist all := by decide
  by_cases hsettled : ∃ k : MemberKind, k.settled options c ≠ none
  · -- primary keys are preferred, whichever kind was found
    obtain ⟨k, hk, hfirst⟩ : ∃ k : MemberKind, k.settled options c ≠ none ∧
        (k = unique → primary.settled options c = none) := by
      obtain ⟨k, hk⟩ := hsettled
      by_cases hprimary : primary.settled options c = none
      · exact ⟨k, hk, fun _ ↦ hprimary⟩
      · exact ⟨primary, hprimary, fun h ↦ by cases h⟩
    obtain ⟨found, hfound⟩ := Option.ne_none_iff_exists'.1 hk
    have hmem : k ∈ all := by cases k <;> decide
    rw [findSome?_settled hnodup horder (hperm.mem_iff.2 hmem) hfirst hfound,
      findSome?_settled (by decide) hwritten hmem hfirst hfound]
  · have hnone (k : MemberKind) : k.settled options c = none := by
      by_contra hk
      exact hsettled ⟨k, hk⟩
    rw [List.findSome?_eq_none_iff.2 fun k _ ↦ hnone k,
      List.findSome?_eq_none_iff.2 fun k _ ↦ hnone k]

end MemberKind

namespace Member

theorem parserOf_outcome (options : Options) (kinds : List MemberKind) (s : ParserState) :
    (parserOf kinds options).outcome s =
      (kinds.findSome? (MemberKind.settled options s.cursor)).getD
        (.error (s.cursor.mismatch "entity member")) :=
  Choice.firstOr_outcome (fun _ ↦ rfl) _ kinds s

/-- No line is a member of two kinds, except that every primary key is a uniqueness constraint as
well. So the kinds may be tried in any order in which primary keys come before constraints. -/
theorem kinds_exclusive_in_any_order (options : Options) :
    (∀ (c : Cursor) (k l : MemberKind) (m n : Member) (d e : Cursor),
      k.reader options c = .ok m d → l.reader options c = .ok n e →
        k = l ∨ (k = .primary ∧ l = .unique) ∨ (k = .unique ∧ l = .primary)) ∧
    (∀ (c d : Cursor) (p : Primary), Primary.reader options.markedNames c = .ok p d →
      ∃ u : Unique, Unique.reader options.markedNames c = .ok u d ∧
        u.name.text = Keyword.primary ∧ u.fieldNames = p.fieldNames) ∧
    ∀ kinds : List MemberKind, kinds.Perm MemberKind.all → [.primary, .unique].Sublist kinds →
      ∀ s : ParserState, (parserOf kinds options).outcome s = (parser options).outcome s := by
  refine ⟨fun c k l m n d e hk hl ↦ MemberKind.eq_of_ok hk hl,
    fun c d p hp ↦ Primary.unique_of_ok hp, fun kinds hperm horder s ↦ ?_⟩
  rw [parser, parserOf_outcome, parserOf_outcome, MemberKind.findSome?_settled_eq hperm horder]

theorem primary_in_other_order : ∃ (u : Unique) (d : Cursor),
    Unique.reader false (.ofText "  Primary b\n".toList) = .ok u d ∧ u.name.text = "Primary" ∧
      (parserOf [.comment, .blank, .primary, .unique, .foreign, .derive, .field] default).outcome
          (.ofText "  Primary b\n".toList) =
        (parser default).outcome (.ofText "  Primary b\n".toList) := by
  obtain ⟨-, hunique, horder⟩ := kinds_exclusive_in_any_order default
  have hread : (Primary.reader false).value? (.ofText "  Primary b\n".toList) =
      some ⟨[⟨"b", ⟨1, 11⟩, ⟨1, 12⟩⟩], ⟨1, 3⟩, ⟨1, 12⟩⟩ := by decide +kernel
  obtain ⟨d, hd⟩ := Reader.ok_of_value? hread
  obtain ⟨u, hu, hname, -⟩ := hunique _ d _ hd
  exact ⟨u, d, hu, hname, horder _ (by decide) (by decide) _⟩

end Member

end EntityModels
