import SchemaTypes.CommandLine.Run
import SchemaTypes.Files.Tree
import SchemaTypes.Proofs.CommandLine.Choices
import SchemaTypes.Proofs.Emission.Selection
import SchemaTypes.Proofs.Settings.Layers

/-!
# Writing declarations from the command line

A call that writes declarations reads the settings and then the schema document, and selects the
definitions that it names. Each of the three may fail. What is chosen in the call lies over what the
settings say, and this over what holds where nothing is said; the path of the document is seen from
the directory of the settings unless the call gives one.

## Main definitions

* `CommandLine.InForce`: the settings that hold for what has been read from their file
* `Settings.Layer.ofChoices`: what a call says of the settings
* `CommandLine.Generates`: what a call is to write in a tree of files
* `CommandLine.Fails`: what can go wrong
* `CommandLine.runIn`: the run of a call in a tree of files

## Main results

* `CommandLine.fails_iff`: a call fails exactly if there is nothing it is to write
* `CommandLine.runIn_generates`: the run of a call
-/

namespace SchemaTypes

open Files Schema

/-- What a call says of the settings. The path of the document is not among it, since it is not seen
from the directory of the settings. -/
def Settings.Layer.ofChoices (choices : List CommandLine.Choice) : Layer where
  inputPath := none
  indent := choices.findSome? CommandLine.Choice.indent?
  exported := if .unexported ∈ choices then some false else none
  header := choices.findSome? CommandLine.Choice.header?

namespace CommandLine

open Json (bind_eq_ok map_eq_ok)

/-- The settings that hold for what has been read from their file: the standard ones if nothing is
there, and otherwise those with what the file says over them. -/
inductive InForce : Reading → Settings → Prop
  | standard : InForce .missing .standard
  | written {content : List Char} {settings : Settings} {entries : List Toml.Entry}
    (haccepted : Settings.ofText content = .ok settings)
    (hentries : Toml.readDocument? content = some entries) :
    InForce (.text content) ((Settings.Layer.ofEntries entries).over .standard)

variable {tree : Tree} {arguments : List String} {choices others : List Choice} {text : String}

/-- The path of the settings of a call. -/
def configPath (choices : List Choice) : String :=
  (choices.findSome? Choice.config?).getD standardConfig

/-- The path of the document of a call: the one that is chosen, or the one of the settings, seen
from the directory of their file. -/
def documentPath (choices : List Choice) (settings : Settings) : String :=
  (choices.findSome? Choice.input?).getD (SettingsFile.mk (configPath choices) settings).inputPath

/-- The names of the definitions that a call selects. -/
def selection (choices : List Choice) : List String :=
  choices.filterMap Choice.definition?

/-- What a call is to write in a tree of files. -/
def Generates (tree : Tree) (choices : List Choice) (text : String) : Prop :=
  ∃ settings content document,
    InForce (tree.read (configPath choices)) settings ∧
    tree.read (documentPath choices settings) = .text content ∧
    Document.ofText (documentPath choices settings) content = .ok document ∧
    Emission.generate document (selection choices)
      ((Settings.Layer.ofChoices choices).over settings).renderOptions = .ok text

/-- What can go wrong with the settings, the document or the selection of a call. -/
inductive Fails (tree : Tree) (choices : List Choice) : Prop
  | unreadableSettings (h : tree.read (configPath choices) = .unreadable)
  | badSettings {content : List Char} {fault : Settings.Fault}
    (h : tree.read (configPath choices) = .text content)
    (hfault : Settings.ofText content = .error fault)
  | unreadableDocument {settings : Settings}
    (hsettings : InForce (tree.read (configPath choices)) settings)
    (h : ∀ content, tree.read (documentPath choices settings) ≠ .text content)
  | badDocument {settings : Settings} {content : List Char} {failure : Failure}
    (hsettings : InForce (tree.read (configPath choices)) settings)
    (h : tree.read (documentPath choices settings) = .text content)
    (hfailure : Document.ofText (documentPath choices settings) content = .error failure)
  | unknownDefinition {settings : Settings} {content : List Char} {document : Document}
    {name : String} (hsettings : InForce (tree.read (configPath choices)) settings)
    (h : tree.read (documentPath choices settings) = .text content)
    (hdocument : Document.ofText (documentPath choices settings) content = .ok document)
    (hname : name ∈ selection choices) (hunknown : document.defines name = false)

/-- The run of a call in a tree of files. -/
def runIn (tree : Tree) (arguments : List String) : Outcome :=
  Id.run (run tree.read arguments)

/-! ### Reading -/

theorem InForce.unique {reading : Reading} {first second : Settings}
    (hfirst : InForce reading first) (hsecond : InForce reading second) : first = second := by
  cases hfirst with
  | standard =>
    cases hsecond
    rfl
  | written _ hentries =>
    cases hsecond with
    | written _ hothers => rw [Option.some.inj (hentries.symm.trans hothers)]

/-- A file of settings that is accepted says what is in force. -/
theorem inForce_text_iff {content : List Char} {settings : Settings} :
    InForce (.text content) settings ↔ Settings.ofText content = .ok settings := by
  constructor
  · rintro (- | ⟨haccepted, hentries⟩)
    obtain ⟨others, hothers, rfl⟩ := Settings.eq_over_of_ofText haccepted
    rwa [Option.some.inj (hentries.symm.trans hothers)]
  · intro haccepted
    obtain ⟨entries, hentries, rfl⟩ := Settings.eq_over_of_ofText haccepted
    exact .written haccepted hentries

/-- The settings that have been read are the ones in force. -/
theorem settingsOrStandard_eq_ok_iff {reading : Reading} {path : String} {file : SettingsFile} :
    reading.settingsOrStandard path = .ok file ↔
      file.path = path ∧ InForce reading file.settings := by
  cases reading with
  | missing =>
    rw [Reading.settingsOrStandard, if_pos rfl, Except.ok.injEq]
    constructor
    · rintro rfl
      exact ⟨rfl, .standard⟩
    · rintro ⟨rfl, hinForce⟩
      rw [InForce.standard.unique hinForce]
  | unreadable => exact iff_of_false (fun h => nomatch h) (fun h => nomatch h.2)
  | text content =>
    rw [inForce_text_iff]
    have hread : (Reading.text content).settingsOrStandard path =
        (Settings.ofNamedText path content).map (SettingsFile.mk path) := rfl
    rw [hread, Settings.ofNamedText]
    cases Settings.ofText content with
    | error fault => exact iff_of_false (fun h => nomatch h) (fun h => nomatch h.2)
    | ok settings =>
      rw [Except.mapError, Except.map, Except.ok.injEq, Except.ok.injEq]
      constructor
      · rintro rfl
        exact ⟨rfl, rfl⟩
      · rintro ⟨rfl, rfl⟩
        rfl

theorem document_eq_ok_iff {reading : Reading} {path : String} {document : Document} :
    reading.document path = .ok document ↔
      ∃ content, reading = .text content ∧ Document.ofText path content = .ok document := by
  cases reading with
  | missing | unreadable => exact iff_of_false (fun h => nomatch h) (fun ⟨_, h, _⟩ => nomatch h)
  | text content =>
    refine ⟨fun h => ⟨content, rfl, h⟩, ?_⟩
    rintro ⟨_, ⟨⟩, h⟩
    exact h

/-! ### The selection -/

/-- Declarations are written exactly if the document defines every name that is selected. -/
theorem exists_generate_iff {document : Document} {names : List String}
    {options : TypeScript.RenderOptions} :
    (∃ text, Emission.generate document names options = .ok text) ↔
      ∀ name ∈ names, document.defines name = true := by
  constructor
  · rintro ⟨text, htext⟩
    obtain ⟨context, hrun, -⟩ := map_eq_ok.mp htext
    obtain ⟨selected, hselected, -⟩ := map_eq_ok.mp hrun
    exact (Document.select_eq_ok_iff.mp hselected).1
  · intro hdefined
    have hselected := Document.select_eq_ok_iff.mpr ⟨hdefined, rfl⟩
    exact ⟨_, map_eq_ok.mpr ⟨_, Emission.run_of_select hselected, rfl⟩⟩

/-- Neither the order of the names nor their repetition shows in the declarations. -/
theorem generate_of_same {document : Document} {names others : List String}
    {options : TypeScript.RenderOptions} (hsame : ∀ name, name ∈ names ↔ name ∈ others)
    (h : Emission.generate document names options = .ok text) :
    Emission.generate document others options = .ok text := by
  obtain ⟨context, hrun, htext⟩ := map_eq_ok.mp h
  obtain ⟨selected, hselected, hcontext⟩ := map_eq_ok.mp hrun
  refine map_eq_ok.mpr ⟨context, ?_, htext⟩
  exact map_eq_ok.mpr ⟨selected, Document.select_congr hsame hselected, hcontext⟩

/-! ### Calls -/

/-- A call fails exactly if there is nothing it is to write. -/
theorem fails_iff : Fails tree choices ↔ ¬ ∃ text, Generates tree choices text := by
  constructor
  · rintro hfails ⟨text, settings, content, document, hsettings, hcontent, hdocument, htext⟩
    cases hfails with
    | unreadableSettings h =>
      rw [h] at hsettings
      cases hsettings
    | badSettings h hfault =>
      rw [h, inForce_text_iff, hfault] at hsettings
      cases hsettings
    | unreadableDocument hothers h =>
      rw [hothers.unique hsettings] at h
      exact h content hcontent
    | badDocument hothers h hfailure =>
      rw [hothers.unique hsettings] at h hfailure
      obtain rfl := Reading.text.inj (h.symm.trans hcontent)
      cases hfailure.symm.trans hdocument
    | unknownDefinition hothers h hother hname hunknown =>
      rw [hothers.unique hsettings] at h hother
      obtain rfl := Reading.text.inj (h.symm.trans hcontent)
      obtain rfl := Except.ok.inj (hother.symm.trans hdocument)
      have hdefined := exists_generate_iff.mp ⟨text, htext⟩ _ hname
      exact Bool.false_ne_true (hunknown.symm.trans hdefined)
  · intro hnone
    have hsettings : Fails tree choices ∨
        ∃ settings, InForce (tree.read (configPath choices)) settings := by
      cases hread : tree.read (configPath choices) with
      | missing => exact .inr ⟨_, .standard⟩
      | unreadable => exact .inl (.unreadableSettings hread)
      | text content =>
        cases haccepted : Settings.ofText content with
        | error fault => exact .inl (.badSettings hread haccepted)
        | ok settings => exact .inr ⟨settings, inForce_text_iff.mpr haccepted⟩
    obtain hfails | ⟨settings, hsettings⟩ := hsettings
    · exact hfails
    · cases hread : tree.read (documentPath choices settings) with
      | missing =>
        refine .unreadableDocument hsettings fun content h => ?_
        cases hread.symm.trans h
      | unreadable =>
        refine .unreadableDocument hsettings fun content h => ?_
        cases hread.symm.trans h
      | text content =>
        cases hdocument : Document.ofText (documentPath choices settings) content with
        | error failure => exact .badDocument hsettings hread hdocument
        | ok document =>
          by_contra hfails
          have hdefined : ∀ name ∈ selection choices, document.defines name = true := by
            intro name hname
            by_contra hunknown
            exact hfails (.unknownDefinition hsettings hread hdocument hname
              (Bool.eq_false_iff.mpr hunknown))
          obtain ⟨text, htext⟩ := exists_generate_iff.mpr hdefined
          exact hnone ⟨text, settings, content, document, hsettings, hread, hdocument, htext⟩

theorem Generates.of_same (h : Once choices) (hothers : Once others)
    (hsame : ∀ choice, choice ∈ choices ↔ choice ∈ others)
    (hgenerates : Generates tree choices text) : Generates tree others text := by
  have hconfig : configPath others = configPath choices := by
    rw [configPath, configPath, h.findSome?_congr hothers hsame tells_config]
  have hpath : documentPath others = documentPath choices := by
    funext settings
    rw [documentPath, documentPath, hconfig, h.findSome?_congr hothers hsame tells_input]
  have hlayer : Settings.Layer.ofChoices others = Settings.Layer.ofChoices choices := by
    rw [Settings.Layer.ofChoices, Settings.Layer.ofChoices,
      h.findSome?_congr hothers hsame tells_indent, h.findSome?_congr hothers hsame tells_header,
      if_congr (hsame _) rfl rfl]
  have hselection : ∀ name, name ∈ selection choices ↔ name ∈ selection others := by
    intro name
    rw [selection, selection, List.mem_filterMap, List.mem_filterMap]
    exact exists_congr fun choice => and_congr_left' (hsame choice)
  obtain ⟨settings, content, document, hsettings, hcontent, hdocument, htext⟩ := hgenerates
  refine ⟨settings, content, document, ?_, ?_, ?_, ?_⟩
  · rwa [hconfig]
  · rwa [hpath]
  · rwa [hpath]
  · rw [hlayer]
    exact generate_of_same hselection htext

/-- What a call writes in a tree of files, or why it does not. -/
def generation (tree : Tree) (choices : List Choice) : Except Failure String := do
  let file ← (tree.read (configPath choices)).settingsOrStandard (configPath choices)
  let path := (choices.findSome? Choice.input?).getD file.inputPath
  let document ← (tree.read path).document path
  (Emission.generate document (selection choices)
    ((Settings.Layer.ofChoices choices).over file.settings).renderOptions).mapError
      .unknownDefinition

theorem generation_eq_ok_iff :
    generation tree choices = .ok text ↔ Generates tree choices text := by
  have hmapError : ∀ {outcome : Except String String},
      outcome.mapError Failure.unknownDefinition = .ok text ↔ outcome = .ok text := by
    rintro (missing | written)
    · exact iff_of_false (fun h => nomatch h) (fun h => nomatch h)
    · rw [Except.mapError, Except.ok.injEq, Except.ok.injEq]
  simp only [generation, bind_eq_ok, settingsOrStandard_eq_ok_iff, document_eq_ok_iff, hmapError]
  constructor
  · rintro ⟨⟨_, settings⟩, ⟨rfl, hsettings⟩, document, ⟨content, hcontent, hdocument⟩, htext⟩
    exact ⟨settings, content, document, hsettings, hcontent, hdocument, htext⟩
  · rintro ⟨settings, content, document, hsettings, hcontent, hdocument, htext⟩
    exact ⟨⟨_, settings⟩, ⟨rfl, hsettings⟩, document, ⟨content, hcontent, hdocument⟩, htext⟩

theorem renderOptions_ofChoices (choices : List Choice) (settings : Settings) :
    (GenerateFlags.ofChoices choices).renderOptions settings =
      ((Settings.Layer.ofChoices choices).over settings).renderOptions := by
  rw [GenerateFlags.renderOptions, Settings.renderOptions, Settings.renderOptions,
    Settings.Layer.over, Settings.Layer.ofChoices, GenerateFlags.ofChoices,
    TypeScript.RenderOptions.mk.injEq]
  refine ⟨?_, ?_, rfl⟩
  · cases choices.findSome? Choice.indent? <;> rfl
  · by_cases hchosen : Choice.unexported ∈ choices
    · simp [hchosen]
    · simp [hchosen]

theorem load_eq (tree : Tree) (config : String) (input : Option String) :
    Inputs.load (m := Id) tree.read config input =
      match (tree.read config).settingsOrStandard config with
      | .error failure => .error failure
      | .ok file =>
        let path := input.getD file.inputPath
        ((tree.read path).document path).map fun document => ⟨file.settings, path, document⟩ :=
  rfl

theorem runIn_eq (hcall : IsCall arguments choices) (tree : Tree) :
    runIn tree arguments =
      match generation tree choices with
      | .ok text => .success (.text text) ""
      | .error failure => .ofFailure failure := by
  have hrequest := ofArguments_eq_generate_iff.mpr ⟨choices, hcall, rfl⟩
  have hgenerate : ∀ inputs : Inputs,
      generate (.ofChoices choices) inputs =
        (Emission.generate inputs.document (selection choices)
          ((Settings.Layer.ofChoices choices).over inputs.settings).renderOptions).mapError
            .unknownDefinition := by
    intro inputs
    rw [generate, renderOptions_ofChoices]
    rfl
  have hload : (Inputs.load (m := Id) tree.read (configPath choices)
      (choices.findSome? Choice.input?)).bind (generate (.ofChoices choices)) =
        generation tree choices := by
    rw [load_eq, generation]
    cases (tree.read (configPath choices)).settingsOrStandard (configPath choices) with
    | error failure => rfl
    | ok file =>
      let path := (choices.findSome? Choice.input?).getD file.inputPath
      change (((tree.read path).document path).map _).bind _ =
        (((tree.read path).document path).bind _)
      cases (tree.read path).document path with
      | error failure => rfl
      | ok document => exact hgenerate ⟨file.settings, path, document⟩
  rw [← hload, runIn, run, hrequest]
  rfl

theorem Generates.unique {first second : String} (hfirst : Generates tree choices first)
    (hsecond : Generates tree choices second) : first = second :=
  Except.ok.inj ((generation_eq_ok_iff.mpr hfirst).symm.trans (generation_eq_ok_iff.mpr hsecond))

/-- A call writes what it is to write, and fails if there is nothing. -/
theorem runIn_cases (hcall : IsCall arguments choices) (tree : Tree) :
    (∃ text, Generates tree choices text ∧
        runIn tree arguments = .success (.text text) "") ∨
      Fails tree choices ∧ ∃ failure, runIn tree arguments = .ofFailure failure := by
  rw [runIn_eq hcall]
  cases hgeneration : generation tree choices with
  | ok text => exact .inl ⟨text, generation_eq_ok_iff.mp hgeneration, rfl⟩
  | error failure =>
    refine .inr ⟨fails_iff.mpr ?_, failure, rfl⟩
    rintro ⟨text, htext⟩
    cases hgeneration.symm.trans (generation_eq_ok_iff.mpr htext)

/-- Calls with the same choices are to write the same. -/
theorem IsCall.generates_iff (hcall : IsCall arguments choices) {otherArguments : List String}
    (hother : IsCall otherArguments others) (hsame : ∀ choice, choice ∈ choices ↔ choice ∈ others) :
    Generates tree choices text ↔ Generates tree others text := by
  obtain ⟨_, _, _, -, -, -, honce⟩ := hcall
  obtain ⟨_, _, _, -, -, -, hothers⟩ := hother
  exact ⟨.of_same honce hothers hsame, .of_same hothers honce fun choice => (hsame choice).symm⟩

/-- **The run of a call** in a tree of files. It ends with code 0 and some text as its output
exactly if the text is the declarations of the document at the path of the call, for the names it
selects, as its options say over the settings over what is standard. It ends with code 1 exactly if
the settings, the document or the selection fails, and then the output is empty. Calls with the same
choices, in whatever order and however often repeated, have the same code and output. -/
theorem runIn_generates (tree : Tree) (arguments : List String) :
    ((∃ flags, Request.ofArguments arguments = .ok (.generate flags)) ↔
      ∃ choices, IsCall arguments choices) ∧
    ∀ choices, IsCall arguments choices →
      (∀ text, (runIn tree arguments).code = 0 ∧ (runIn tree arguments).written = .text text ↔
        Generates tree choices text) ∧
      ((runIn tree arguments).code = 1 ↔ Fails tree choices) ∧
      ((runIn tree arguments).code = 0 ∧ (∃ text, (runIn tree arguments).written = .text text) ∨
        (runIn tree arguments).code = 1 ∧ (runIn tree arguments).written = .text "") ∧
      ∀ otherArguments others, IsCall otherArguments others →
        (∀ choice, choice ∈ choices ↔ choice ∈ others) →
          (runIn tree otherArguments).code = (runIn tree arguments).code ∧
            (runIn tree otherArguments).written = (runIn tree arguments).written := by
  refine ⟨?_, fun choices hcall => ?_⟩
  · constructor
    · rintro ⟨flags, hflags⟩
      obtain ⟨choices, hcall, -⟩ := ofArguments_eq_generate_iff.mp hflags
      exact ⟨choices, hcall⟩
    · rintro ⟨choices, hcall⟩
      exact ⟨_, ofArguments_eq_generate_iff.mpr ⟨choices, hcall, rfl⟩⟩
  rcases runIn_cases hcall tree with ⟨text, htext, houtcome⟩ | ⟨hfails, failure, houtcome⟩
  · rw [houtcome]
    refine ⟨fun other => ⟨?_, fun hother => ⟨rfl, ?_⟩⟩, ?_, .inl ⟨rfl, text, rfl⟩, ?_⟩
    · rintro ⟨-, heq⟩
      rwa [← Output.text.inj heq]
    · exact congrArg Output.text (htext.unique hother)
    · exact iff_of_false (fun h => nomatch h) fun hfails => fails_iff.mp hfails ⟨text, htext⟩
    · intro otherArguments others hother hsame
      have htext := (hcall.generates_iff hother hsame).mp htext
      rcases runIn_cases hother tree with ⟨written, hwritten, heq⟩ | ⟨hfails, -⟩
      · rw [heq, hwritten.unique htext]
        exact ⟨rfl, rfl⟩
      · exact absurd ⟨text, htext⟩ (fails_iff.mp hfails)
  · rw [houtcome]
    have hnone := fails_iff.mp hfails
    refine ⟨fun other => ?_, iff_of_true rfl hfails, .inr ⟨rfl, rfl⟩, ?_⟩
    · exact iff_of_false (fun h => nomatch h.1) fun hother => hnone ⟨other, hother⟩
    · intro otherArguments others hother hsame
      rcases runIn_cases hother tree with ⟨written, hwritten, -⟩ | ⟨-, _, heq⟩
      · exact absurd ⟨written, (hcall.generates_iff hother hsame).mpr hwritten⟩ hnone
      · rw [heq]
        exact ⟨rfl, rfl⟩

/-- A document that defines two names. -/
def shopText : String :=
  "\x7b\"definitions\": \x7b\"Item\": \x7b\x7d, \"Order\": \x7b\x7d\x7d\x7d"

/-- A tree with settings and a document. -/
def shop : Tree :=
  (Tree.empty.add "swagdef.toml" (.text "[typescript]\nexport = false\n".toList)).add
    "swagger.json" (.text shopText.toList)

/-- Two calls with the same choices, in another order and with a name repeated. -/
theorem runIn_generates_shop :
    IsCall ["generate", "-d", "Item", "--indent", "4", "-d", "Order"]
        [.definition "Item", .indent 4, .definition "Order"] ∧
      IsCall ["generate", "--indent=4", "-dOrder", "--definition", "Item", "-d=Order"]
        [.indent 4, .definition "Order", .definition "Item", .definition "Order"] ∧
      (∀ text,
        (runIn shop ["generate", "-d", "Item", "--indent", "4", "-d", "Order"]).code = 0 ∧
          (runIn shop ["generate", "-d", "Item", "--indent", "4", "-d", "Order"]).written =
            .text text ↔
        Generates shop [.definition "Item", .indent 4, .definition "Order"] text) ∧
      (runIn shop
          ["generate", "--indent=4", "-dOrder", "--definition", "Item", "-d=Order"]).written =
        (runIn shop ["generate", "-d", "Item", "--indent", "4", "-d", "Order"]).written := by
  have hcall : IsCall ["generate", "-d", "Item", "--indent", "4", "-d", "Order"]
      [.definition "Item", .indent 4, .definition "Order"] :=
    ⟨[], _, _, rfl, fun _ h => absurd h List.not_mem_nil, by decide, by decide⟩
  have hother : IsCall ["generate", "--indent=4", "-dOrder", "--definition", "Item", "-d=Order"]
      [.indent 4, .definition "Order", .definition "Item", .definition "Order"] :=
    ⟨[], _, _, rfl, fun _ h => absurd h List.not_mem_nil, by decide, by decide⟩
  obtain ⟨houtput, -, -, hsame⟩ := (runIn_generates shop _).2 _ hcall
  refine ⟨hcall, hother, houtput, (hsame _ _ hother fun choice => ?_).2⟩
  simp only [List.mem_cons, List.not_mem_nil, or_false]
  tauto

end CommandLine

end SchemaTypes
