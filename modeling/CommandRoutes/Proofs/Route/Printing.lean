import CommandRoutes.Proofs.Predicate.Printing
import CommandRoutes.Proofs.Route.Grammar

/-!
# Reading routes back

Segments written one after the other, with slashes between them, are told apart
again: the text of a route determines the text of each segment, and the text of
a segment its slot and its name. Only rows of predicates may be told apart less
well than they should. Where all predicates are plain the route is read back as
it was written.
-/
namespace CommandRoutes

open Text

/-- No predicate of the segment has a quoted literal with a single quote. -/
def Segment.Plain : Segment → Prop
  | .switch predicates => ∀ p ∈ predicates, p.Plain
  | _ => True

namespace Route

/-! ## Telling written segments apart -/

theorem toList_render_switch {predicates : List Predicate}
    (h : (Segment.switch predicates).Readable) :
    ∃ rest, (Segment.switch predicates).render.toList = '[' :: rest := by
  obtain ⟨p, ps, rfl⟩ := List.exists_cons_of_ne_nil h.1
  exact ⟨_, Predicate.toList_renderAll (p :: ps)⟩

/-- What may go on is written as a name that any further piece may follow. -/
theorem namePiece_render {s : Segment} (h : s.Readable) (hends : s.endsRoute = false) :
    NamePiece s.render.toList s := by
  cases s with
  | static name =>
      obtain ⟨hname, hdynamic, hspread⟩ := h
      simpa [Segment.render] using NamePiece.static hname hdynamic hspread
  | dynamic name =>
      have hname : IsName name.toList := h
      simpa [Segment.render] using NamePiece.dynamic hname
  | spread name => cases hends
  | switch predicates => cases hends

/-- A segment that is no row of predicates is read from what it is written as. -/
theorem readName?_render {s : Segment} (h : s.Readable) (hname : s.predicates? = none) :
    IsName s.render.toList ∧ readName? s.render.toList = some s := by
  have named : s.endsRoute = false →
      IsName s.render.toList ∧ readName? s.render.toList = some s := by
    intro hends
    have hpiece := namePiece_render h hends
    exact ⟨hpiece.isName, (readName?_eq_some_iff hpiece.isName).mpr (.inl hpiece)⟩
  cases s with
  | static name => exact named rfl
  | dynamic name => exact named rfl
  | spread name =>
      have hspread : IsName name.toList := h
      have htext : (Segment.spread name).render.toList = '.' :: '.' :: '.' :: name.toList := by
        simp [Segment.render]
      rw [htext, readName?_eq_some_iff hspread.dots]
      exact ⟨hspread.dots, .inr ⟨_, hspread, rfl, by simp⟩⟩
  | switch predicates => cases hname

/-- Segments written alike stand in the same slot under the same name. -/
theorem eq_of_render_eq {s s' : Segment} (h : s.Readable) (h' : s'.Readable)
    (heq : s.render = s'.render) : s.slot = s'.slot ∧ s.label = s'.label := by
  have apart : ∀ {s s' : Segment}, s.Readable → s'.Readable → s.render = s'.render →
      s.predicates? = none → s'.predicates? = none := by
    intro s s' h h' heq hname
    cases s' with
    | switch predicates =>
        obtain ⟨rest, hrest⟩ := toList_render_switch h'
        obtain ⟨⟨_, hclean⟩, _⟩ := readName?_render h hname
        rw [heq, hrest] at hclean
        exact absurd rfl (hclean '[' (List.mem_cons_self ..)).2.2.1
    | static name => rfl
    | dynamic name => rfl
    | spread name => rfl
  cases hname : s.predicates? with
  | none =>
      have hread := (readName?_render h hname).2
      rw [heq, (readName?_render h' (apart h h' heq hname)).2] at hread
      cases hread
      exact ⟨rfl, rfl⟩
  | some predicates =>
      cases hname' : s'.predicates? with
      | none => simp [apart h' h heq.symm hname'] at hname
      | some predicates' =>
          cases s <;> cases hname
          cases s' <;> cases hname'
          exact ⟨rfl, heq⟩

/-- The segments with a slash in front of each. -/
def slashed (segments : List Segment) : List Char :=
  segments.flatMap fun s => '/' :: s.render.toList

theorem slashed_cons (s : Segment) (rest : List Segment) :
    slashed (s :: rest) = '/' :: (s.render.toList ++ slashed rest) := rfl

theorem toList_render_cons (s : Segment) (rest : List Segment) :
    (render (s :: rest)).toList = s.render.toList ++ slashed rest := by
  induction rest generalizing s with
  | nil => simp [render, slashed]
  | cons next rest ih =>
      rw [slashed_cons, ← ih next]
      simp [render, String.toList_intercalate]

theorem takeWhile_append_slashed {name : List Char} (h : IsName name) (rest : List Segment) :
    (name ++ slashed rest).takeWhile (· ≠ '/') = name := by
  have hname : ∀ c ∈ name, decide (c ≠ '/') = true := fun c hc => by simpa using (h.2 c hc).2.1
  rw [List.takeWhile_append_of_pos hname]
  cases rest with
  | nil => simp [slashed]
  | cons next rest => simp [slashed_cons]

/-- The text of segments determines the text of each. -/
theorem map_render_eq_of_slashed_eq {segments segments' : List Segment}
    (ready : Registrable segments) (ready' : Registrable segments')
    (h : ∀ s ∈ segments, s.Readable) (h' : ∀ s ∈ segments', s.Readable)
    (heq : slashed segments = slashed segments') :
    segments.map Segment.render = segments'.map Segment.render := by
  have apart : ∀ {s s' : Segment} {rest rest' : List Segment}, s.Readable → s'.Readable →
      s.predicates? = none → s'.predicates? ≠ none →
      s.render.toList ++ slashed rest ≠ s'.render.toList ++ slashed rest' := by
    intro s s' rest rest' hs hs' hname hswitch heq
    obtain ⟨hne, hclean⟩ := (readName?_render hs hname).1
    obtain ⟨c, name, hc⟩ := List.exists_cons_of_ne_nil hne
    obtain ⟨predicates, hpredicates⟩ := Option.ne_none_iff_exists'.mp hswitch
    cases s' <;> cases hpredicates
    obtain ⟨tail, htail⟩ := toList_render_switch hs'
    rw [hc, htail] at heq
    rw [hc] at hclean
    exact (hclean c (List.mem_cons_self ..)).2.2.1 (List.cons.inj heq).1
  induction segments generalizing segments' with
  | nil =>
      cases segments' with
      | nil => rfl
      | cons s' rest' => cases heq
  | cons s rest ih =>
      cases segments' with
      | nil => cases heq
      | cons s' rest' =>
          obtain ⟨hs, hrest⟩ := List.forall_mem_cons.mp h
          obtain ⟨hs', hrest'⟩ := List.forall_mem_cons.mp h'
          have htext : s.render.toList ++ slashed rest = s'.render.toList ++ slashed rest' :=
            (List.cons.inj heq).2
          cases hname : s.predicates? with
          | none =>
              have hname' : s'.predicates? = none := by
                by_contra hswitch
                exact apart hs hs' hname hswitch htext
              have hfirst : s.render.toList = s'.render.toList := by
                rw [← takeWhile_append_slashed (readName?_render hs hname).1 rest, htext,
                  takeWhile_append_slashed (readName?_render hs' hname').1]
              rw [hfirst, List.append_cancel_left_eq] at htext
              rw [List.map_cons, List.map_cons, String.toList_inj.mp hfirst,
                ih ready.tail ready'.tail hrest hrest' htext]
          | some predicates =>
              -- a row of predicates ends the route on either side
              have hswitch : s.predicates? ≠ none := by simp [hname]
              have hswitch' : s'.predicates? ≠ none := fun hname' =>
                apart hs' hs hname' hswitch htext.symm
              have ends : ∀ {s : Segment}, s.predicates? ≠ none → s.endsRoute = true := by
                intro s hs
                cases s with
                | switch predicates => rfl
                | static name => exact absurd rfl hs
                | dynamic name => exact absurd rfl hs
                | spread name => exact absurd rfl hs
              rw [ready.rest_eq_nil (ends hswitch), ready'.rest_eq_nil (ends hswitch')] at htext ⊢
              simp only [slashed, List.flatMap_nil, List.append_nil] at htext
              rw [List.map_singleton, List.map_singleton, String.toList_inj.mp htext]

theorem render_ne_empty {s : Segment} (h : s.Readable) : s.render.toList ≠ [] := by
  cases hname : s.predicates? with
  | none => exact (readName?_render h hname).1.1
  | some predicates =>
      cases s <;> cases hname
      obtain ⟨tail, htail⟩ := toList_render_switch h
      simp [htail]

/-- Routes with one text have segments of the same texts. -/
theorem map_render_eq {segments segments' : List Segment} (ready : Registrable segments)
    (ready' : Registrable segments') (h : ∀ s ∈ segments, s.Readable)
    (h' : ∀ s ∈ segments', s.Readable) (heq : render segments = render segments') :
    segments.map Segment.render = segments'.map Segment.render := by
  have slashed_of_ne : ∀ {s : Segment} {rest : List Segment},
      slashed (s :: rest) = '/' :: (render (s :: rest)).toList := fun {s rest} => by
    rw [toList_render_cons, slashed_cons]
  have nonempty : ∀ {s : Segment} {rest : List Segment}, s.Readable →
      (render (s :: rest)).toList ≠ [] := fun {s rest} hs => by
    rw [toList_render_cons]
    exact List.append_ne_nil_of_left_ne_nil (render_ne_empty hs) _
  have hlist := congrArg String.toList heq
  cases segments with
  | nil =>
      cases segments' with
      | nil => rfl
      | cons s' rest' => exact absurd hlist.symm (nonempty (h' s' (List.mem_cons_self ..)))
  | cons s rest =>
      cases segments' with
      | nil => exact absurd hlist (nonempty (h s (List.mem_cons_self ..)))
      | cons s' rest' =>
          refine map_render_eq_of_slashed_eq ready ready' h h' ?_
          rw [slashed_of_ne, slashed_of_ne, hlist]

/-! ## Reading back -/

theorem lastPiece_render {s : Segment} (h : s.Readable) (plain : s.Plain) :
    LastPiece s.render.toList [s] := by
  cases s with
  | static name => exact .name (namePiece_render h rfl)
  | dynamic name => exact .name (namePiece_render h rfl)
  | spread name =>
      have hname : IsName name.toList := h
      simpa [Segment.render] using LastPiece.spread hname
  | switch predicates =>
      obtain ⟨rest, hrest⟩ := toList_render_switch h
      rw [hrest]
      refine .groups ?_
      rw [← hrest, String.ofList_toList]
      exact Predicate.readAll_renderAll h.2 plain

/-- Plain segments are written in one piece each. -/
theorem pieces_render {segments : List Segment} (hne : segments ≠ []) (ready : Registrable segments)
    (h : ∀ s ∈ segments, s.Readable) (plain : ∀ s ∈ segments, s.Plain) :
    Pieces (segments.map (·.render.toList)) segments := by
  induction segments with
  | nil => exact absurd rfl hne
  | cons s rest ih =>
      obtain ⟨hs, hrest⟩ := List.forall_mem_cons.mp h
      obtain ⟨hplain, hplains⟩ := List.forall_mem_cons.mp plain
      cases rest with
      | nil => exact .last (lastPiece_render hs hplain)
      | cons next rest =>
          have hends : s.endsRoute = false := by
            by_contra hends
            exact absurd (ready.rest_eq_nil (by simpa using hends)) (List.cons_ne_nil next rest)
          exact .cons (namePiece_render hs hends)
            (ih (List.cons_ne_nil next rest) ready.tail hrest hplains)

theorem read_of_body_eq {route : String} {segments : List Segment} (ready : Registrable segments)
    (h : ∀ s ∈ segments, s.Readable) (plain : ∀ s ∈ segments, s.Plain)
    (hbody : body route = (render segments).toList) : read route = .ok segments := by
  rw [read_eq_ok_iff, hbody]
  by_cases hne : segments = []
  · exact .inl ⟨by rw [hne]; rfl, hne⟩
  · refine .inr ⟨_, pieces_render hne ready h plain, ?_⟩
    simp [render, String.toList_intercalate, Function.comp_def]

/-- Plain segments are read back from the route they are written as. -/
theorem read_slash_render {segments : List Segment} (ready : Registrable segments)
    (h : ∀ s ∈ segments, s.Readable) (plain : ∀ s ∈ segments, s.Plain) :
    read ("/" ++ render segments) = .ok segments :=
  read_of_body_eq ready h plain (by simp [body])

end Route
end CommandRoutes
