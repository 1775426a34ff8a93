import Motion.Part.Basic
import Motion.Text.Lowercase

/-! Ready-made part lists for families of objects, selected by nouns. -/
namespace Motion

/-- A family of objects: the names of its parts in id order and the nouns that select it. -/
structure Skeleton where
  kind : String
  partNames : List String
  nouns : List String
  deriving Repr

namespace Skeleton

def parts (s : Skeleton) : List Part := Part.ofNames s.partNames

/-- The family of every noun that no other one claims. -/
def fallback : Skeleton := ⟨"default", ["body"], []⟩

/-- Every family, the fallback last. -/
def all : List Skeleton := [
  { kind := "quadruped"
    partNames := ["head", "body", "front_legs", "back_legs", "tail", "neck"]
    nouns := ["horse", "dog", "cat", "cow", "lion", "tiger", "deer", "wolf", "bear", "elephant",
      "giraffe", "zebra", "fox", "rabbit", "pony", "stallion", "mare", "mustang", "puppy", "kitten",
      "leopard", "cheetah", "panther", "moose", "rhino", "hippo", "camel"] },
  { kind := "biped"
    partNames := ["head", "torso", "left_arm", "right_arm", "left_leg", "right_leg"]
    nouns := ["person", "human", "man", "woman", "child", "robot", "soldier", "dancer", "astronaut",
      "knight", "warrior", "zombie", "skeleton", "angel", "devil", "ninja", "samurai", "pirate"] },
  { kind := "bird"
    partNames := ["head", "body", "left_wing", "right_wing", "tail", "legs"]
    nouns := ["bird", "eagle", "hawk", "owl", "parrot", "penguin", "flamingo", "crow", "raven",
      "dove", "sparrow", "hummingbird", "swan", "pelican", "toucan", "falcon", "vulture"] },
  { kind := "fish"
    partNames := ["head", "body", "tail_fin", "dorsal_fin", "pectoral_fins"]
    nouns := ["fish", "shark", "whale", "dolphin", "goldfish", "tuna", "swordfish", "ray",
      "seahorse", "octopus", "squid", "jellyfish"] },
  { kind := "vehicle"
    partNames := ["body", "wheels", "windshield", "roof"]
    nouns := ["car", "truck", "bus", "motorcycle", "van", "jeep", "taxi", "ambulance", "firetruck",
      "tractor"] },
  { kind := "aircraft"
    partNames := ["fuselage", "left_wing", "right_wing", "tail", "engines"]
    nouns := ["airplane", "jet", "helicopter", "plane", "biplane", "glider", "drone"] },
  { kind := "furniture"
    partNames := ["seat", "backrest", "legs"]
    nouns := ["chair", "stool", "bench", "throne", "couch", "sofa", "armchair", "recliner"] },
  { kind := "plant"
    partNames := ["trunk", "canopy", "roots"]
    nouns := ["tree", "palm", "oak", "pine", "willow", "birch", "maple", "cactus", "bamboo",
      "bonsai"] },
  { kind := "building"
    partNames := ["walls", "roof", "windows", "door", "foundation"]
    nouns := ["house", "building", "castle", "church", "cabin", "temple", "tower", "lighthouse",
      "barn", "mosque", "cathedral"] },
  { kind := "insect"
    partNames := ["head", "thorax", "abdomen", "wings", "legs"]
    nouns := ["butterfly", "bee", "dragonfly", "beetle", "ant", "spider", "moth", "wasp",
      "grasshopper", "ladybug", "scorpion"] },
  fallback]

def ofKind? (kind : String) : Option Skeleton := all.find? (·.kind == kind)

/-- The family that a noun selects; blanks around it and case do not count. -/
def ofNoun (noun : String) : Skeleton :=
  (all.find? fun s => s.nouns.contains (Text.normalizeWord noun)).getD fallback

end Skeleton

end Motion
