import CommandRoutes.Proofs.Route.Printing

/-!
# Which texts are read back

Segments and predicates that were read are written in one normal form, with
single quotes alone. The normal form is read back as the same segments or
predicates just if no quoted literal holds a single quote: otherwise the literal
would end at that quote, and whatever is read instead, if anything is, has a
literal that was closed there.
-/
namespace CommandRoutes

open Text

namespace Text

theorem trim_cons_of_not_blank {c : Char} (hc : isBlank c = false) (cs : List Char) :
    trim (c :: cs) = c :: trimEnd cs := by
  have hfront : (c :: cs).dropWhile isBlank = c :: cs := by simp [hc]
  rw [trim, hfront, trimEnd]
  cases trimEnd cs <;> simp [hc]

end Text

namespace Predicate

/-- What is read from a group that goes on with a single quote after its equals sign is plain. -/
theorem plain_of_written {id rest : List Char} {p : Predicate} (hid : Enclosed ['='] id)
    (h : Written (id ++ '=' :: '\'' :: rest) p) : p.Plain := by
  have hsplit := (splitAtEquals_of_enclosed hid).2 ('\'' :: rest)
  generalize hraw : id ++ '=' :: '\'' :: rest = raw at h hsplit
  cases h with
  | presence => simp [Plain]
  | valued hleft _ hliteral =>
      rw [(splitAtEquals_of_enclosed hleft).2] at hsplit
      cases hsplit
      rw [trim_cons_of_not_blank (by decide)] at hliteral
      generalize htext : '\'' :: trimEnd rest = text at hliteral
      rintro _ ⟨⟩
      cases hliteral with
      | bare _ => exact trivial
      | quoted _ hinner =>
          obtain ⟨rfl, _⟩ := List.cons.inj htext
          simpa [Literal.Plain] using hinner

/-- A predicate is plain if it is read from the front of what it is written as. -/
theorem plain_of_group {p : Predicate} {raw rest rest' : List Char} (readable : p.Readable)
    (h : Written raw p) (heq : p.body ++ ']' :: rest = raw ++ ']' :: rest') : p.Plain := by
  have hid := readable.enclosed_id (by simp : ['='] ⊆ ['[', ']', '='])
  have hclose : ']' ∉ p.id.toList := fun hmem => (readable.id_clean _ hmem).2.2.2.1 rfl
  obtain ⟨id, _ | ⟨text⟩ | ⟨text⟩⟩ := p
  · simp [Plain]
  · simp [Plain, Literal.Plain]
  · -- the group goes on past the quote that opens the literal
    have htext : (id.toList ++ ['=', '\'']) ++ (text.toList ++ '\'' :: ']' :: rest) =
        raw ++ ']' :: rest' := by
      simpa [body] using heq
    have hopened : ∃ more, raw = id.toList ++ '=' :: '\'' :: more := by
      obtain ⟨more, hraw, _⟩ | ⟨cut, hfront, hcut⟩ := List.append_eq_append_iff.mp htext
      · exact ⟨more, by simpa using hraw⟩
      · cases cut with
        | nil => exact ⟨[], by simpa using hfront.symm⟩
        | cons c cut =>
            obtain ⟨rfl, _⟩ := List.cons.inj hcut
            have hmem : ']' ∈ id.toList ++ ['=', '\''] := by simp [hfront]
            exact absurd (by simpa using hmem) hclose
    obtain ⟨more, rfl⟩ := hopened
    exact plain_of_written hid h

/-- Predicates that are read back as they were written are plain. -/
theorem plain_of_row_renderAll {ps : List Predicate} (readable : ∀ p ∈ ps, p.Readable)
    (h : Row (renderAll ps).toList ps) : ∀ p ∈ ps, p.Plain := by
  rw [toList_renderAll] at h
  induction ps with
  | nil => simp
  | cons p ps ih =>
      obtain ⟨hp, hps⟩ := List.forall_mem_cons.mp readable
      simp only [List.flatMap_cons, List.cons_append, List.append_assoc, List.nil_append] at h
      obtain ⟨raw, rest, _, _, htext, hraw, hwritten, hrest, hsame⟩ := h.exists_of_opened
      cases hsame
      have plain := plain_of_group hp hwritten htext
      -- the first group ends where it was written to end
      obtain ⟨_, rfl⟩ := (enclosed_body hp plain).append_cons_inj (by simp) (by decide) hraw htext
      exact List.forall_mem_cons.mpr ⟨plain, ih hps hrest⟩

end Predicate

namespace Route

theorem body_render {segments : List Segment} (readable : ∀ s ∈ segments, s.Readable) :
    body (render segments) = (render segments).toList := by
  cases segments with
  | nil => rfl
  | cons s rest =>
      have hs := readable s (List.mem_cons_self ..)
      have hfirst : ∀ c ∈ s.render.toList.head?, c ≠ '/' := by
        cases hname : s.predicates? with
        | none => exact fun c hc => ((readName?_render hs hname).1.2 c (List.mem_of_mem_head? hc)).2.1
        | some predicates =>
            cases s <;> cases hname
            obtain ⟨tail, htail⟩ := toList_render_switch hs
            simp [htail]
      obtain ⟨c, tail, htext⟩ := List.exists_cons_of_ne_nil (render_ne_empty hs)
      have hc : c ≠ '/' := hfirst c (by simp [htext])
      rw [body, toList_render_cons, htext, List.cons_append]
      split
      · next heq => exact absurd (List.cons.inj heq).1 hc
      · rfl

theorem read_render {segments : List Segment} (ready : Registrable segments)
    (readable : ∀ s ∈ segments, s.Readable) (plain : ∀ s ∈ segments, s.Plain) :
    read (render segments) = .ok segments :=
  read_of_body_eq ready readable plain (body_render readable)

/-- Pieces that are the normal form of their segments have plain segments. -/
theorem plain_of_pieces {pieces : List (List Char)} {segments : List Segment}
    (h : Pieces pieces segments) (readable : ∀ s ∈ segments, s.Readable)
    (hrender : ['/'].intercalate pieces = (render segments).toList) : ∀ s ∈ segments, s.Plain := by
  have named : ∀ {piece : List Char} {s : Segment}, NamePiece piece s → s.Plain := by
    intro piece s hpiece
    cases hpiece <;> trivial
  induction h with
  | last hpiece =>
      rw [List.intercalate_singleton] at hrender
      cases hpiece with
      | name hname => exact List.forall_mem_singleton.mpr (named hname)
      | spread _ => exact List.forall_mem_singleton.mpr trivial
      | @groups rest ps hread =>
          refine List.forall_mem_singleton.mpr ?_
          have htext : '[' :: rest = (Predicate.renderAll ps).toList := by
            simpa [toList_render_cons, slashed, Segment.render] using hrender
          rw [htext, String.ofList_toList] at hread
          exact Predicate.plain_of_row_renderAll (readable _ (List.mem_singleton_self _)).2
            (Predicate.readAll_eq_ok_iff.mp hread)
      | namedGroups hname _ =>
          -- a slash is written between a name and its groups
          rw [toList_render_cons, hname.render, slashed_cons] at hrender
          simp at hrender
  | @cons piece s pieces segments hname hpieces ih =>
      obtain ⟨_, hrest⟩ := List.forall_mem_cons.mp readable
      refine List.forall_mem_cons.mpr ⟨named hname, ih hrest ?_⟩
      obtain ⟨next, others, rfl⟩ := List.exists_cons_of_ne_nil hpieces.ne_nil.1
      obtain ⟨s', rest, rfl⟩ := List.exists_cons_of_ne_nil hpieces.ne_nil.2
      rw [List.intercalate_cons_cons, toList_render_cons, hname.render, slashed_cons,
        ← toList_render_cons, List.append_assoc] at hrender
      simpa using hrender

/-- What was read is read back from its normal form just if no quoted literal in it holds a single
quote. This goes for the segments of routes and for rows of predicates. -/
theorem read_render_iff_plain :
    (∀ route segments, read route = .ok segments →
      (read (render segments) = .ok segments ↔ ∀ s ∈ segments, s.Plain)) ∧
    ∀ text ps, Predicate.readAll text = .ok ps →
      (Predicate.readAll (Predicate.renderAll ps) = .ok ps ↔ ∀ p ∈ ps, p.Plain) := by
  constructor
  · intro route segments hread
    have readable := readable_of_read hread
    refine ⟨fun hback => ?_, read_render (registrable_of_read hread) readable⟩
    rw [read_eq_ok_iff, body_render readable] at hback
    obtain ⟨_, rfl⟩ | ⟨pieces, hpieces, htext⟩ := hback
    · simp
    · exact plain_of_pieces hpieces readable htext.symm
  · intro text ps hread
    have readable := Predicate.readable_of_readAll hread
    refine ⟨fun hback => ?_, Predicate.readAll_renderAll readable⟩
    exact Predicate.plain_of_row_renderAll readable (Predicate.readAll_eq_ok_iff.mp hback)

/-- A route with a slash in double quotes is read back, an apostrophe in double quotes is not. -/
theorem read_render_iff_plain_double_quotes :
    read "a/:b[c=\"/d\"]" = .ok [.static "a", .dynamic "b", .switch [⟨"c", some (.quoted "/d")⟩]] ∧
    read "a/:b/[c='/d']" = .ok [.static "a", .dynamic "b", .switch [⟨"c", some (.quoted "/d")⟩]] ∧
    Predicate.readAll "[a=\"it's\"]" = .ok [⟨"a", some (.quoted "it's")⟩] ∧
    Predicate.readAll "[a='it's']" ≠ .ok [⟨"a", some (.quoted "it's")⟩] := by
  have hroute : read "a/:b[c=\"/d\"]" =
      .ok [.static "a", .dynamic "b", .switch [⟨"c", some (.quoted "/d")⟩]] := by decide +kernel
  have htext : Predicate.readAll "[a=\"it's\"]" = .ok [⟨"a", some (.quoted "it's")⟩] := by
    decide +kernel
  obtain ⟨routes, rows⟩ := read_render_iff_plain
  refine ⟨hroute, ?_, htext, fun hback => ?_⟩
  · exact (routes _ _ hroute).mpr (by simp [Segment.Plain, Predicate.Plain, Literal.Plain])
  · have plain := (rows _ _ htext).mp hback
    simp [Predicate.Plain, Literal.Plain] at plain

end Route
end CommandRoutes
