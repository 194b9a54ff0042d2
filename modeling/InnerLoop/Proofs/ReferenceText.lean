import InnerLoop.Proofs.ReferenceGrammar
import InnerLoop.Proofs.InPlace

/-!
# References and their texts

A reference that was read is written as the text it was read from, with the tag `latest` added if
nothing follows the path. The text is read back as the same reference, wherever it stands: on a
command line, in a container, or as the name and tag by which a stream is looked up.

- `fullText`: the text with its tag or digest.
- `WrittenPath.render_eq`: a path stands in front of whatever follows it.
- `render_of_written`, `written_fullText`, `written_streamTag`: what is written, and by which rules.
- `RunBy`: the image of a workload is a text that is read as the reference.
- `render_of_parse`: **a reference that was read is written back as the text, and read again from
  every place it is written to**.
-/

namespace InnerLoop

namespace ImageReference

/-- A text with its tag or digest, which is the tag `latest` if it has neither. -/
def fullText (s : String) : String :=
  if ':' ∈ s.toList ∨ '@' ∈ s.toList then s else s ++ ":latest"

section

variable {s path name version : String} {ns : Option String} {r : ImageReference}
  {without : List Char}

/-- A text with a separator in it has all it needs. -/
theorem fullText_separator {a sep b : String} {c : Char} (hsep : sep.toList = [c])
    (hc : c = ':' ∨ c = '@') : fullText (a ++ sep ++ b) = a ++ sep ++ b := by
  unfold fullText
  rw [toList_append_separator a sep b hsep, if_pos]
  rcases hc with rfl | rfl
  · exact .inl (List.mem_append_right _ List.mem_cons_self)
  · exact .inr (List.mem_append_right _ List.mem_cons_self)

/-- A text without separators gets the tag `latest`. -/
theorem fullText_plain (hpath : WrittenPath checked.path s ns name) :
    fullText s = s ++ ":" ++ "latest" := by
  have hcolon : ':' ∉ s.toList := hpath.notMem (by decide) (by decide)
  have hat : '@' ∉ s.toList := hpath.notMem (by decide) (by decide)
  rw [String.append_assoc]
  exact if_neg (not_or.mpr ⟨hcolon, hat⟩)

/-- The path stands in front of what follows the name. -/
theorem WrittenPath.render_eq (hpath : WrittenPath without path r.ns r.name)
    (hversion : r.streamTag = r.name ++ version) : r.render = path ++ version := by
  obtain ⟨ns, name, tag, digest⟩ := r
  cases hpath with
  | bare hname => exact hversion
  | @inNamespace n _ hns hname =>
    show n ++ "/" ++ streamTag _ = _
    rw [hversion, ← String.append_assoc]

/-- The name of a path is a path of its own. -/
theorem WrittenPath.bareName (hpath : WrittenPath without path ns name) :
    WrittenPath without name none name := by
  cases hpath with
  | bare hname => exact .bare hname
  | inNamespace hns hname => exact .bare hname

/-! ## Writing what was read -/

/-- What is written is the text that was read, with its tag. -/
theorem render_of_written (h : Written checked s r) : r.render = fullText s := by
  cases h with
  | plain hpath =>
    rw [fullText_plain hpath, String.append_assoc]
    exact hpath.render_eq (String.append_assoc ..)
  | @tagged path name tag ns hpath htag =>
    rw [fullText_separator rfl (.inl rfl), String.append_assoc]
    exact hpath.render_eq (String.append_assoc ..)
  | @pinned path name digest ns hpath hdigest =>
    rw [fullText_separator rfl (.inr rfl), String.append_assoc]
    exact hpath.render_eq (String.append_assoc ..)

/-- The tag `latest` is a tag. -/
theorem isPart_latest : IsPart checked.tag "latest" :=
  ⟨by decide, by simp [checked]⟩

/-- The text with its tag is written by the same rules, and means the same. -/
theorem written_fullText (h : Written checked s r) : Written checked (fullText s) r := by
  cases h with
  | plain hpath =>
    rw [fullText_plain hpath]
    exact .tagged hpath isPart_latest
  | tagged hpath htag =>
    rw [fullText_separator rfl (.inl rfl)]
    exact .tagged hpath htag
  | pinned hpath hdigest =>
    rw [fullText_separator rfl (.inr rfl)]
    exact .pinned hpath hdigest

/-- The name with its tag or digest is written by the same rules, without the namespace. -/
theorem written_streamTag (h : Written checked s r) :
    Written checked r.streamTag { r with ns := none } := by
  cases h with
  | plain hpath => exact .tagged hpath.bareName isPart_latest
  | tagged hpath htag => exact .tagged hpath.bareName htag
  | pinned hpath hdigest => exact .pinned hpath.bareName hdigest

end

/-! ## Where it is written -/

/-- The primary container of a workload runs an image whose text is read as the reference. -/
def RunBy (r : ImageReference) (name : String) (d : DeploymentConfig) : Prop :=
  ∃ c text, d.primary name = .ok c ∧ c.image = some text ∧ parse text = .ok r

section

variable {s supervisorImage : String} {r : ImageReference} {component : ComponentMeta}
  {current wanted written : DeploymentConfig} {live : Container} {builder : BuilderImage}

/-- A workload that is switched to build mode runs the image that it is switched to. -/
theorem runBy_of_buildMode (hr : parse r.render = .ok r) (hname : current.name = component.name)
    (hlive : current.primary component.name = .ok live)
    (hwritten : prepareUpdate component.name current (buildModeWorkload component current live r)
      (some stripDevMode) = .ok written) : r.RunBy component.name written := by
  obtain ⟨hcheck, -⟩ := podsOver_of_buildMode hname hlive hwritten
  cases hwritten.symm.trans (prepareUpdate_buildMode hname hlive hcheck)
  exact ⟨_, _, (podsOver_overwrite rfl).primary_eq, rfl, hr⟩

/-- A workload that is switched to dev mode runs the builder, if that is not to be pulled from
elsewhere. -/
theorem runBy_of_devMode (hr : parse r.render = .ok r) (hbuilder : builder.reference = r)
    (hpull : builder.metadata.dockerImageReference = none)
    (hlive : current.primary component.name = .ok live)
    (hwanted : devModeWorkload component current live builder supervisorImage = .ok wanted)
    (hwritten : prepareUpdate component.name current wanted none = .ok written) :
    r.RunBy component.name written := by
  obtain ⟨_, _, -, -, hupdate⟩ := prepareUpdate_devMode hlive hwanted
  cases hwritten.symm.trans hupdate
  have himage : builder.pullReference = r.render := by
    unfold BuilderImage.pullReference
    rw [hpull, hbuilder]
    rfl
  exact ⟨_, _, (podsOver_overwrite rfl).primary_eq, congrArg some himage, hr⟩

/-- **Writing and reading are inverse.** A reference that was read is written as the text that it
was read from, with the tag `latest` if that has neither tag nor digest. From this text the same
reference is read, and from its name and tag the reference without its namespace. So the image of
a workload that was switched to a mode is read as the reference that the user gave. -/
theorem render_of_parse (h : parse s = .ok r) :
    r.render = fullText s ∧ parse r.render = .ok r ∧
    parse r.streamTag = .ok { r with ns := none } ∧
    (∀ component current live written, current.name = component.name →
      current.primary component.name = .ok live →
      prepareUpdate component.name current (buildModeWorkload component current live r)
        (some stripDevMode) = .ok written →
      r.RunBy component.name written) ∧
    (∀ component current live builder supervisorImage wanted written, builder.reference = r →
      builder.metadata.dockerImageReference = none →
      current.primary component.name = .ok live →
      devModeWorkload component current live builder supervisorImage = .ok wanted →
      prepareUpdate component.name current wanted none = .ok written →
      r.RunBy component.name written) := by
  have hs : Written checked s r := written_of_parse h
  have hrender : r.render = fullText s := render_of_written hs
  have hr : parse r.render = .ok r := parse_of_written (hrender ▸ written_fullText hs)
  refine ⟨hrender, hr, parse_of_written (written_streamTag hs), ?_, ?_⟩
  · intro component current live written hname hlive hwritten
    exact runBy_of_buildMode hr hname hlive hwritten
  · intro component current live builder supervisorImage wanted written hbuilder hpull hlive hwanted
      hwritten
    exact runBy_of_devMode hr hbuilder hpull hlive hwanted hwritten

end

/-- What is read from a text with a tag before its digest. -/
def taggedDigest : ImageReference where
  ns := some "openshift"
  name := "nodejs:10"
  tag := none
  digest := some "sha256:abc"

/-- The builder of the shop under that reference. -/
def taggedBuilder : BuilderImage := { shopBuilder with reference := taggedDigest }

/-- The first colon stands before the `@` here and so belongs to the name, the second one belongs to
the digest. Each of them is written back where it stood, also by the switches to the two modes. -/
theorem render_of_parse_colons :
    parse "openshift/nodejs:10@sha256:abc" = .ok taggedDigest ∧
    taggedDigest.render = "openshift/nodejs:10@sha256:abc" ∧
    parse taggedDigest.render = .ok taggedDigest ∧
    parse "nodejs:10@sha256:abc" = .ok { taggedDigest with ns := none } ∧
    ∃ wanted dev liveDev built,
      devModeWorkload (.ofWorkload shopWorkload) shopWorkload shopContainer taggedBuilder "sup:1"
        = .ok wanted ∧
      prepareUpdate "web" shopWorkload wanted none = .ok dev ∧ taggedDigest.RunBy "web" dev ∧
      prepareUpdate "web" dev (buildModeWorkload (.ofWorkload shopWorkload) dev liveDev taggedDigest)
        (some stripDevMode) = .ok built ∧ taggedDigest.RunBy "web" built := by
  have hread : parse "openshift/nodejs:10@sha256:abc" = .ok taggedDigest := rfl
  obtain ⟨hrender, hagain, hstream, hbuild, hdevMode⟩ := render_of_parse hread
  have hwanted : devModeWorkload (.ofWorkload shopWorkload) shopWorkload shopContainer taggedBuilder
      "sup:1" = .ok _ := devModeWorkload_eq_ok_iff.mpr ⟨_, _, rfl, rfl, rfl⟩
  obtain ⟨dev, liveDev, hthere, hdev, hmounts⟩ := podsOver_devMode primary_shopWorkload hwanted
  -- The way back to build mode starts from what the way to dev mode left.
  have hname : dev.name = (ComponentMeta.ofWorkload shopWorkload).name := hdev.name_eq
  have hcheck : checkDevMode dev = .ok () := checkDevMode_of_front (hname.symm ▸ hdev.primary_eq)
    (hname.symm ▸ hdev.volumes_eq) (hname.symm ▸ hmounts)
  obtain ⟨built, _, hback, -⟩ := podsOver_buildMode taggedDigest hname hdev.primary_eq hcheck
  exact ⟨hread, hrender, hagain, hstream, _, dev, liveDev, built, hwanted, hthere,
    hdevMode _ _ _ _ _ _ _ rfl rfl primary_shopWorkload hwanted hthere, hback,
    hbuild _ _ _ _ hname hdev.primary_eq hback⟩

end ImageReference

end InnerLoop
