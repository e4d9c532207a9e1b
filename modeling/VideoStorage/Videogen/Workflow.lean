import VideoStorage.Videogen.Generate

/-!
# The workflow

`build_ltx2_workflow`: a fixed graph of nodes, four values of which come from the
request. What a reader of the graph finds is given by `nodeInput`.
-/

namespace VideoStorage.Videogen

open Foundation

def node (classType : String) (inputs : List (String × Json)) : Json :=
  Json.object [("inputs", Json.object inputs), ("class_type", .str classType)]

/-- An output slot of another node. -/
def link (id : String) (slot : ℤ) : Json := .arr [.str id, .ofInt slot]

def half : Json := .ofF64 ⟨0x3FE0000000000000⟩

def sevenTenths : Json := .ofF64 ⟨0x3FE6666666666666⟩

def one : Json := .ofF64 ⟨0x3FF0000000000000⟩

def maxDurationSecs : UInt8 := 15

/-- A duration above the bound, like one not given, is the bound. -/
def workflowDuration (durationSeconds : Option UInt8) : ℕ :=
  ((durationSeconds.filter (· ≤ maxDurationSecs)).getD maxDurationSecs).toNat

def ltx2Nodes (request : GenerateRequest) (stagedImageUrl : Option String) :
    List (String × Json) :=
  [("267:236", node "CheckpointLoaderSimple" [
      ("ckpt_name", .str "ltx-2.3-22b-dev-fp8.safetensors")]),
    ("267:243", node "LTXAVTextEncoderLoader" [
      ("text_encoder", .str "gemma_3_12B_it_fp4_mixed.safetensors"),
      ("ckpt_name", .str "ltx-2.3-22b-dev-fp8.safetensors"),
      ("device", .str "default")]),
    ("267:221", node "LTXVAudioVAELoader" [
      ("ckpt_name", .str "ltx-2.3-22b-dev-fp8.safetensors")]),
    ("267:232", node "LoraLoaderModelOnly" [
      ("lora_name", .str "ltx-2.3-22b-distilled-lora-384.safetensors"),
      ("strength_model", half), ("model", link "267:236" 0)]),
    ("267:233", node "LatentUpscaleModelLoader" [
      ("model_name", .str "ltx-2.3-spatial-upscaler-x2-1.1.safetensors")]),
    ("267:201", node "PrimitiveBoolean" [
      ("value", .bool stagedImageUrl.isNone)]),
    ("267:260", node "PrimitiveInt" [("value", .ofInt 25)]),
    ("267:225", node "PrimitiveInt" [
      ("value", .ofInt (workflowDuration request.durationSeconds))]),
    ("267:257", node "PrimitiveInt" [("value", .ofInt 720)]),
    ("267:258", node "PrimitiveInt" [("value", .ofInt 1280)]),
    ("267:261", node "ComfyMathExpression" [("expression", .str "a"),
      ("values.a", link "267:260" 0)]),
    ("267:277", node "ComfyMathExpression" [("expression", .str "a * b + 1"),
      ("values.a", link "267:225" 0), ("values.b", link "267:260" 0)]),
    ("267:256", node "ComfyMathExpression" [("expression", .str "a/2"),
      ("values.a", link "267:257" 0)]),
    ("267:259", node "ComfyMathExpression" [("expression", .str "a/2"),
      ("values.a", link "267:258" 0)]),
    ("267:266", node "PrimitiveStringMultiline" [
      ("value", .str request.prompt)]),
    ("267:240", node "CLIPTextEncode" [("text", link "267:266" 0),
      ("clip", link "267:243" 0)]),
    ("267:247", node "CLIPTextEncode" [
      ("text", .str
        "pc game, console game, video game, cartoon, childish, ugly"),
      ("clip", link "267:243" 0)]),
    ("267:239", node "LTXVConditioning" [("frame_rate", link "267:261" 0),
      ("positive", link "267:240" 0), ("negative", link "267:247" 0)]),
    ("267:214", node "LTXVEmptyLatentAudio" [
      ("frames_number", link "267:277" 1), ("frame_rate", link "267:261" 1),
      ("batch_size", .ofInt 1), ("audio_vae", link "267:221" 0)]),
    ("267:276", node "LoadImage" [
      ("image", .str (stagedImageUrl.getD "example.png"))]),
    ("267:238", node "ResizeImageMaskNode" [
      ("resize_type", .str "scale dimensions"),
      ("resize_type.width", link "267:257" 0),
      ("resize_type.height", link "267:258" 0),
      ("resize_type.crop", .str "center"), ("scale_method", .str "lanczos"),
      ("input", link "267:276" 0)]),
    ("267:235", node "ResizeImagesByLongerEdge" [("longer_edge", .ofInt 1536),
      ("images", link "267:238" 0)]),
    ("267:248", node "LTXVPreprocess" [("img_compression", .ofInt 18),
      ("image", link "267:235" 0)]),
    ("267:228", node "EmptyLTXVLatentVideo" [("width", link "267:256" 1),
      ("height", link "267:259" 1), ("length", link "267:277" 1),
      ("batch_size", .ofInt 1)]),
    ("267:249", node "LTXVImgToVideoInplace" [("strength", sevenTenths),
      ("bypass", link "267:201" 0), ("vae", link "267:236" 2),
      ("image", link "267:248" 0), ("latent", link "267:228" 0)]),
    ("267:222", node "LTXVConcatAVLatent" [("video_latent", link "267:249" 0),
      ("audio_latent", link "267:214" 0)]),
    ("267:237", node "RandomNoise" [("noise_seed", .ofInt 0)]),
    ("267:209", node "KSamplerSelect" [
      ("sampler_name", .str "euler_ancestral_cfg_pp")]),
    ("267:252", node "ManualSigmas" [
      ("sigmas", .str ("1.0, 0.99375, 0.9875, 0.98125, 0.975, 0.909375, " ++
        "0.725, 0.421875, 0.0"))]),
    ("267:231", node "CFGGuider" [("cfg", .ofInt 1),
      ("model", link "267:232" 0), ("positive", link "267:239" 0),
      ("negative", link "267:239" 1)]),
    ("267:215", node "SamplerCustomAdvanced" [("noise", link "267:237" 0),
      ("guider", link "267:231" 0), ("sampler", link "267:209" 0),
      ("sigmas", link "267:252" 0), ("latent_image", link "267:222" 0)]),
    ("267:217", node "LTXVSeparateAVLatent" [("av_latent", link "267:215" 0)]),
    ("267:253", node "LTXVLatentUpsampler" [("samples", link "267:217" 0),
      ("upscale_model", link "267:233" 0), ("vae", link "267:236" 2)]),
    ("267:230", node "LTXVImgToVideoInplace" [("strength", one),
      ("bypass", link "267:201" 0), ("vae", link "267:236" 2),
      ("image", link "267:248" 0), ("latent", link "267:253" 0)]),
    ("267:229", node "LTXVConcatAVLatent" [("video_latent", link "267:230" 0),
      ("audio_latent", link "267:217" 1)]),
    ("267:212", node "LTXVCropGuides" [("positive", link "267:239" 0),
      ("negative", link "267:239" 1), ("latent", link "267:217" 0)]),
    ("267:216", node "RandomNoise" [("noise_seed", .ofInt 0)]),
    ("267:246", node "KSamplerSelect" [("sampler_name", .str "euler_cfg_pp")]),
    ("267:211", node "ManualSigmas" [
      ("sigmas", .str "0.85, 0.7250, 0.4219, 0.0")]),
    ("267:213", node "CFGGuider" [("cfg", .ofInt 1),
      ("model", link "267:232" 0), ("positive", link "267:212" 0),
      ("negative", link "267:212" 1)]),
    ("267:219", node "SamplerCustomAdvanced" [("noise", link "267:216" 0),
      ("guider", link "267:213" 0), ("sampler", link "267:246" 0),
      ("sigmas", link "267:211" 0), ("latent_image", link "267:229" 0)]),
    ("267:218", node "LTXVSeparateAVLatent" [("av_latent", link "267:219" 0)]),
    ("267:251", node "VAEDecodeTiled" [("tile_size", .ofInt 768),
      ("overlap", .ofInt 64), ("temporal_size", .ofInt 4096),
      ("temporal_overlap", .ofInt 4), ("samples", link "267:218" 0),
      ("vae", link "267:236" 2)]),
    ("267:220", node "LTXVAudioVAEDecode" [("samples", link "267:218" 1),
      ("audio_vae", link "267:221" 0)]),
    ("267:242", node "CreateVideo" [("fps", link "267:261" 0),
      ("images", link "267:251" 0), ("audio", link "267:220" 0)]),
    ("75", node "SaveVideo" [("filename_prefix", .str "video/ltx2-3"),
      ("format", .str "auto"), ("codec", .str "auto"),
      ("video-preview", .str ""), ("video", link "267:242" 0)])]

def buildLtx2Workflow (request : GenerateRequest)
    (stagedImageUrl : Option String) : Json :=
  Json.object (ltx2Nodes request stagedImageUrl)

/-- The workflow of the running service. -/
def runtimeWorkflowJson (request : GenerateRequest)
    (stagedImageUrl : Option String) : Except WorkflowError Json :=
  if request.modelId ≠ "ltx2" then .error (.unsupported request.modelId)
  else .ok (buildLtx2Workflow request stagedImageUrl)

/-! ## Reading the graph -/

def nodeInput (workflow : Json) (id name : String) : Option Json :=
  ((workflow.get? id).bind (·.get? "inputs")).bind (·.get? name)

/-- The text that is encoded as the positive conditioning. -/
def workflowPrompt (workflow : Json) : Option Json :=
  nodeInput workflow "267:266" "value"

/-- The image that is loaded. Text-to-video bypasses the loaded image. -/
def workflowImage (workflow : Json) : Option Json :=
  if nodeInput workflow "267:201" "value" = some (.bool true) then none
  else nodeInput workflow "267:276" "image"

variable {request : GenerateRequest} {stagedImageUrl : Option String}

theorem ltx2Nodes_nodup :
    ((ltx2Nodes request stagedImageUrl).map Prod.fst).Nodup := by
  simp only [ltx2Nodes, List.map]
  decide +kernel

theorem node_get?_inputs {classType : String} {inputs : List (String × Json)} :
    (node classType inputs).get? "inputs" = some (Json.object inputs) := by
  rw [node, Json.get?_object (by simp)]
  rfl

/-- A node with one input. -/
theorem nodeInput_single {id name classType : String} {v : Json}
    (h : Json.find id (ltx2Nodes request stagedImageUrl) =
      some (node classType [(name, v)])) :
    nodeInput (buildLtx2Workflow request stagedImageUrl) id name = some v := by
  unfold nodeInput
  rw [buildLtx2Workflow, Json.get?_object ltx2Nodes_nodup, h, Option.bind_some,
    node_get?_inputs, Option.bind_some, Json.get?_object (by simp)]
  simp [Json.find]

@[simp] theorem workflowPrompt_build :
    workflowPrompt (buildLtx2Workflow request stagedImageUrl) =
      some (.str request.prompt) :=
  nodeInput_single rfl

@[simp] theorem workflowImage_build :
    workflowImage (buildLtx2Workflow request stagedImageUrl) =
      stagedImageUrl.map .str := by
  have hswitch : nodeInput (buildLtx2Workflow request stagedImageUrl)
      "267:201" "value" = some (.bool stagedImageUrl.isNone) :=
    nodeInput_single rfl
  have hload : nodeInput (buildLtx2Workflow request stagedImageUrl)
      "267:276" "image" = some (.str (stagedImageUrl.getD "example.png")) :=
    nodeInput_single rfl
  rw [workflowImage, hswitch, hload]
  cases stagedImageUrl <;> rfl

end VideoStorage.Videogen
