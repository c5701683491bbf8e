import ScriptLens.Proofs.CompletedNodes
import ScriptLens.Proofs.Numbering

/-!
# Lists between parentheses

The parameters of a function and the arguments of a call or of `new` stand in a list with a
span of its own, from the opening parenthesis up to the closing one. Where the closing one is
absent, the list has to end somewhere, and its items may end behind the last token: what is
missing is placed in front of the next token, with white space or a comment in between.

A list of arguments goes up to the end of its last item then, so it covers all of them. A list
of parameters ends with its last token, and so its last item may reach over its end: a parameter
that lacks its name (`SourceTree.parse_listsCover`). Nothing else reaches over, because every
other parameter ends with a token, and because of the parameters only the last one has no token
behind it.
-/

namespace ScriptLens

open Node

namespace Parser

variable {r : Setting} {tokens : List Token}

/-- No token lies between the last consumed one and the next. -/
theorem State.At.apart {s : State} (h : s.At tokens) (hin : Token.InOrder 0 tokens r.length)
    {t : Token} (ht : t ∈ tokens) :
    t.span.stop ≤ s.previousEnd ∨ s.position r ≤ t.span.start := by
  have hfits := h.fits hin
  obtain ⟨past, rfl, hend⟩ := h
  rcases List.mem_append.1 ht with ht | ht
  · exact .inl (hend ▸ (hin.append_left.mem ht).2.2)
  · exact .inr (hfits.position_le_start ht)

/-- **A list covers its items**, and lies in its node. Of a function, the last parameter may
reach over the end of the list if it lacks its name; then no token lies between the two ends. -/
def ListCovers (tokens : List Token) (n : Node) : Prop :=
  ∀ list, n.payload.list? = some list →
    n.span.start ≤ list.span.start ∧ list.span.start < list.span.stop
      ∧ list.span.stop ≤ n.span.stop
      ∧ ∀ item ∈ list.items, list.span.start ≤ item.span.start
        ∧ (item.span.stop ≤ list.span.stop
          ∨ n.kind = .functionDeclaration ∧ list.items.getLast? = some item
            ∧ (∃ type name, item.payload = .parameter type name false ∧ name.kind = .missing
              ∧ name.span = .emptyAt item.span.stop)
            ∧ ∀ t ∈ tokens, t.span.stop ≤ list.span.stop ∨ item.span.stop ≤ t.span.start)

/-- The list of a node that a run completes covers its items. -/
theorem CoversItems.listCovers {s s' : State} {n : Node} (h : CoversItems r s n.payload s')
    (hspan : Spanned r s n s'.count) (hat : s.At tokens) (hin : Token.InOrder 0 tokens r.length) :
    ListCovers tokens n := by
  intro list hlist
  obtain ⟨hthrough, hitems⟩ := h list hlist
  have hordered := (forall_mem_postorder.1 hspan.wellNested).2
  refine ⟨hspan.start_eq ▸ hthrough.start_le, hthrough.start_lt_stop, ?_, fun item hitem =>
    ⟨hthrough.le_start item hitem, (hitems item hitem).imp_right ?_⟩⟩
  · rcases hthrough.stop_le with hle | ⟨item, hitem, heq⟩
    · exact Nat.le_trans hle hspan.previousEnd_le
    · rw [heq]
      exact (hordered.covers item (Payload.mem_children_of_mem_list? hlist hitem)).2
  · rintro ⟨hkind, hlast, s₁, hbefore, -, hstop, hnameless⟩
    refine ⟨hkind, hlast, ?_, fun t ht => ?_⟩
    · rw [hnameless.stop_eq]
      exact hnameless.name
    · rw [hstop, hnameless.stop_eq]
      exact (hat.later hbefore).apart hin ht

/-- **A list is completed with its items covered.** -/
theorem completedWith_listCovers (hin : Token.InOrder 0 tokens r.length) :
    CompletedWith r tokens (ListCovers tokens) where
  missing _ _ _ _ _ hlist := by cases hlist
  wrong _ _ _ _ _ hlist := by cases hlist
  finish hat hkind hfit hout hp hstart :=
    hout.list.listCovers ((Completes.finish hkind hfit hout hp hstart).span (hat.fits hin)) hat hin
  openBlock _ _ _ _ hlist := by cases hlist

end Parser

/-- **Lists of arguments and of parameters cover their items** and lie in their nodes. The one
exception is the last parameter of a function where it lacks its name: this is missed in front
of the next token, and the list ends with the token before that, so that no token lies between
the two ends. -/
theorem SourceTree.parse_listsCover (fileName : String) (text : List Char) :
    ∀ n ∈ (SourceTree.parse fileName text).nodes, ∀ list, n.payload.list? = some list →
      n.span.start ≤ list.span.start ∧ list.span.start < list.span.stop
        ∧ list.span.stop ≤ n.span.stop
        ∧ ∀ item ∈ list.items, list.span.start ≤ item.span.start
          ∧ (item.span.stop ≤ list.span.stop
            ∨ n.kind = .functionDeclaration ∧ list.items.getLast? = some item
              ∧ (∃ type name, item.payload = .parameter type name false
                ∧ name.kind = .missing ∧ name.span = .emptyAt item.span.stop)
              ∧ ∀ t ∈ Parser.tokensOf text,
                t.span.stop ≤ list.span.stop ∨ item.span.stop ≤ t.span.start) := by
  have hcovers := Parser.completedWith_listCovers (r := .ofText text)
    (Parser.tokensOf_inOrder text)
  refine SourceTree.forall_nodes hcovers fun n statements hn list hlist => ?_
  rw [hn] at hlist
  cases hlist

/-- A node that has a list, by the kind of the one and the spans of the other. -/
theorem Node.exists_list {o : Option Node} {kind : NodeKind} {span : Span} {spans : List Span}
    (h : o.map (fun n => (n.kind, n.payload.list?.map fun list =>
      (list.span, list.items.map (·.span)))) = some (kind, some (span, spans))) :
    ∃ n, o = some n ∧ n.kind = kind ∧ ∃ list, n.payload.list? = some list ∧ list.span = span
      ∧ list.items.map (·.span) = spans := by
  obtain ⟨n, hn, heq⟩ := Option.map_eq_some_iff.1 h
  obtain ⟨hkind, hsome⟩ := Prod.mk.inj heq
  obtain ⟨list, hlist, hspans⟩ := Option.map_eq_some_iff.1 hsome
  obtain ⟨hspan, hitems⟩ := Prod.mk.inj hspans
  exact ⟨n, hn, hkind, list, hlist, hspan, hitems⟩

/-- The arguments of a call that the end of the text cuts short: the last one is missing behind
a blank, and the list goes up to it. -/
theorem SourceTree.parse_listsCover_call :
    ∃ n ∈ (SourceTree.parse "call" "g(x, ".toList).nodes, ∃ list, n.payload.list? = some list
      ∧ list.span = ⟨1, 5⟩ ∧ list.items.map (·.span) = [⟨2, 3⟩, ⟨5, 5⟩]
      ∧ ∀ item ∈ list.items, list.span.start ≤ item.span.start
        ∧ item.span.stop ≤ list.span.stop := by
  -- the call is the expression of the only statement
  have h : ((SourceTree.parse "call" "g(x, ".toList).root.children[0]?.bind fun c =>
      c.children[0]?).map (fun n =>
        (n.kind, n.payload.list?.map fun list => (list.span, list.items.map (·.span))))
      = some (.call, some (⟨1, 5⟩, [⟨2, 3⟩, ⟨5, 5⟩])) := by
    decide +kernel
  obtain ⟨n, hexpression, hkind, list, hlist, hspan, hitems⟩ := exists_list h
  obtain ⟨c, hstatement, hc⟩ := Option.bind_eq_some_iff.1 hexpression
  have hn := mem_postorder_of_mem_children (List.mem_of_getElem? hstatement)
    (mem_postorder_of_mem_children (List.mem_of_getElem? hc) n.mem_postorder_self)
  obtain ⟨-, -, -, hcovers⟩ := SourceTree.parse_listsCover _ _ n hn list hlist
  refine ⟨n, hn, list, hlist, hspan, hitems, fun item hitem => ?_⟩
  obtain ⟨hstart, hstop | ⟨hfunction, -⟩⟩ := hcovers item hitem
  · exact ⟨hstart, hstop⟩
  · rw [hkind] at hfunction
    cases hfunction

/-- **The parameters of a function that the end of the text cuts short**: the name of the only
one is missing behind the blank, at offset 11, where the parameter ends, and the list ends with
the type, at offset 10. -/
theorem SourceTree.parameter_reaches_over :
    ∃ n ∈ (SourceTree.parse "test.c" "void f(int ".toList).nodes, ∃ list,
      n.kind = .functionDeclaration ∧ n.payload.list? = some list
        ∧ ∃ item ∈ list.items, item.span = ⟨7, 11⟩ ∧ list.span = ⟨6, 10⟩
          ∧ ¬item.span.stop ≤ list.span.stop := by
  have h : (SourceTree.parse "test.c" "void f(int ".toList).root.children[0]?.map (fun n =>
      (n.kind, n.payload.list?.map fun list => (list.span, list.items.map (·.span))))
      = some (.functionDeclaration, some (⟨6, 10⟩, [⟨7, 11⟩])) := by
    decide +kernel
  obtain ⟨n, hdeclaration, hkind, list, hlist, hspan, hitems⟩ := exists_list h
  have hn := mem_postorder_of_mem_children (List.mem_of_getElem? hdeclaration) n.mem_postorder_self
  have hitem : (⟨7, 11⟩ : Span) ∈ list.items.map (·.span) := hitems ▸ List.mem_singleton_self _
  obtain ⟨item, hitem, hspan'⟩ := List.mem_map.1 hitem
  refine ⟨n, hn, list, hkind, hlist, item, hitem, hspan', hspan, ?_⟩
  rw [hspan, hspan']
  decide

end ScriptLens
