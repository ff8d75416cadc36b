import PointsTo.Unicode.NamedSet

/-!
# Extended scripts

A character may be used by several scripts. A script that is not listed here uses the characters that
belong to it.
-/

namespace PointsTo.Unicode

/-- Characters that a script uses, where they are not those that belong to it. -/
def extendedScripts : List NamedSet :=
  [⟨["adlam", "adlm"], ["ciHAbGAjwOAfhHAglrIcXEJEB"]⟩,
   ⟨["arabic", "arab"],
    ["chCEBiGBbHdCbVjGbEBBFcWBbCivNAfhHAczrAeKQrCCcBHAbGPeIEBfEbmHbBeiEbEcPCcDDdglSDBbABBBACABJB",
     "DBABAGAEABABABCBBBACABABABABABBBACDBGBDBDBABJBQFCBEBQcAB"]⟩,
   ⟨["armenian", "armn"], ["bdWAvGbLCbXCCdozJE"]⟩,
   ⟨["avestan", "avst"], ["hBArfSBdfqCcBDG"]⟩,
   ⟨["bengali", "beng"], ["baYAcmUBRBbADBHCBCVBGBADDCICBCDIAEBBECYhdHABACBBAIAIACAEACCcbaFA"]⟩,
   ⟨["bopomofo", "bopo"], ["bbJABCNAQBrbXCEJBMKDCAGAhNAJbQeIbFczlTBkWE"]⟩,
   ⟨["buginese", "bugi"], ["jwAbBCBcckTA"]⟩,
   ⟨["buhid", "buhd"], ["iuNBJT"]⟩,
   ⟨["carian", "cari"], ["hBAlzMACAfgDAdclQbW"]⟩,
   ⟨["caucasianalbanian", "aghb"], ["bdSAbSAbSAdtqNbZLA"]⟩,
   ⟨["chakma", "cakm"], ["dtMJckEJdtfQcABR"]⟩,
   ⟨["cherokee", "cher"], ["bdOCBAGBWBLBgfUdHCFcfjEdB"]⟩,
   ⟨["common", "zyyy"],
    ["AcMbAFbAbUBLBBBEXAbFArHCBJBADABIBABFFECTeWAGABAyNAiHAtWAcaUApPDgdBLCbGBbEBJBBBGBKDKBORbGcL",
     "bLBCCFBbABQbPCEzPWKVbjRjWyDCbFBeAtSWBXCJBDBABZqCADANANAVAuJXbFAbXOMDgFJFdRbFAjtOcLbhsQZdYC",
     "blOAOBbfhSJWUCLBSBDfRABbFbAFbAFeXGBGKEpMMbZbScynBjPGqTgAeLcIjLKbMCcJDQIBHbDEcIiFTMTMdIbBGf",
     "FdGBcSBBCACBCDBLBABGBcMBDCHBGBbBBDBEBADGBnBClFCbXhtHcPcYcIbbEbREdVMOCOBOBbKKgRcEZBBNbREIXF",
     "fYblVEQDMDeOEdQGLEAPLEcDIJGbNIbDCLEBcKnBMNCMDJFcDHOCKGIHfQBdXbsuxBAbEdR"]⟩,
   ⟨["coptic", "copt", "qaac"], ["hBAwMADBBAeEBeENpjKeLFGkTAdcpCbB"]⟩,
   ⟨["cypriot", "cprt"], ["dtiMCEbSDIcoMFCABbRBBDACA"]⟩,
   ⟨["cyprominoan", "cpmn"], ["dtiMBrqKdU"]⟩,
   ⟨["cyrillic", "cyrl"], ["baYAcPCBABABACAFAjElRivOKgEAcYAeXAgaPbFcPAbtlKdRbheCBdhpGcJbHA"]⟩,
   ⟨["devanagari", "deva"], ["baYAcjRdECbQhiEbMBBbnAAbzfRJgKbFbreMJ"]⟩,
   ⟨["dogra", "dogr"], ["doMLcidCJbqiOcH"]⟩,
   ⟨["duployan", "dupl"], ["hBAwTBBAYBqiHAfuqLeCFMDIHJCH"]⟩,
   ⟨["elbasan", "elba"], ["hBAwRAdtsCbN"]⟩,
   ⟨["ethiopic", "ethi"],
    ["beCAfrDcUBDCGBABDCbOBDCbGBDCGBABDCOBcEBDCcOCbFDZjvAWJGBGBGBGBGBGBGBGbvkCFCFCFJGBGepyFGBDBB",
     "BO"]⟩,
   ⟨["garay", "gara"], ["chOAOADAdvqUbLDbCIB"]⟩,
   ⟨["georgian", "geor"], ["hBAbvLAefEbLBAFACbVejWbQCCbjMAeuNbLBAFAjZA"]⟩,
   ⟨["glagolitic", "glag"], ["hBAwPABAoSACAjXAeiRAfvIAekRdRsPAbtnFAeotKGBQCGBBBE"]⟩,
   ⟨["gothic", "goth"], ["hBAwQBCAbOAdsyObA"]⟩,
   ⟨["grantha", "gran"], ["dnTBRByQNgkAABBbECDBbnAAdnrJDBHCBCVBGBBBEBJCBCCCAGAFGCGDEerRBBA"]⟩,
   ⟨["greek", "grek"],
    ["hBAwMBCABABAKAbUACAbQHCDBAEABABCBABTBcKOPjnQEbYEEEdGCmGVCFCbLCFCHBABABABbECcABOBNCFBSCCBId",
     "QAhSAcajEAbgnIdARAdaxRcR"]⟩,
   ⟨["gujarati", "gujr"], ["dnTBRBkXCBIBCBVBGBBBECJBCBCCAPDCLHGchnSJ"]⟩,
   ⟨["gunjalagondi", "gong"], ["hBAdhKBeanIFBBBbKBBBFHJ"]⟩,
   ⟨["gurmukhi", "guru"], ["dnTBRBfZCBFEBCVBGBBBBBBCABEEBCCDAHDBAHQchsZJ"]⟩,
   ⟨["gurungkhema", "gukh"], ["doNAfadEcF"]⟩,
   ⟨["han", "hani"],
    ["hBAriUZBdKMiFbAPBCBMBMBMCAGIhFAfSPbGbLJAbWbNcEbWPLbZAdKYKEdSbEBjtNcMbfbJcqYHbfbCoBCeBbhRBk",
     "WEbqpOBMBblrARlrYBfeSclfBbGgdTGiNCinPOlbKPxXdqWuVcfYhhYFgfF"]⟩,
   ⟨["hangul", "hang"], ["glKjVljLCEJBMOCGAhNAcBdPeJbEcNbEbtaNbCyTqnRMWEbWomZBkWEcGbEDFCFCFCC"]⟩,
   ⟨["hanifirohingya", "rohg"], ["chOAOADAbGAfRAdvhJbNIJ"]⟩,
   ⟨["hanunoo", "hano"], ["itSW"]⟩,
   ⟨["hebrew", "hebr"], ["bdVByYcCIbAEFdovWZBEBABBBBBJ"]⟩,
   ⟨["hiragana", "hira"], ["seRCEJBMQFBAEBDdHCHdMBcztGBkWEKAbTBcouRlASAbDCymVA"]⟩,
   ⟨["inherited", "qaai", "zinh"],
    ["beDACABLBBDGCACPBBBRBEBDcgMBgoXbEbdBcBBABEuEBhMbFdfsQPQNblNAczqObTCWuYCRHCGbEDbtlhIjF"]⟩,
   ⟨["javanese", "java"], ["cmeYcZBKEB"]⟩,
   ⟨["kaithi", "kthi"], ["doOJnxXAbufEJbnmScOKA"]⟩,
   ⟨["kannada", "knda"], ["dnTBRBbeOMBCBWBJBECIBCBDHBGBBDCJBCgaEABBGAXABAcasXF"]⟩,
   ⟨["katakana", "kana"], ["bdTAbDAqzTCEJBMQFBAEBdNDDdRjGPiAbUBdJcywBBkWcKcouADBGBBBAlBCbYAOD"]⟩,
   ⟨["kayahli", "kali"], ["cmaAbV"]⟩,
   ⟨["khojki", "khoj"], ["edIJchoIJbobMRBbU"]⟩,
   ⟨["khudawadi", "sind"], ["doMBcidMJboiGcGFJ"]⟩,
   ⟨["latin", "latn"],
    ["cNZGZbVAMACAFWBbEBrGDAKABCBAJABAGEbBOBBBAMACCHBBBbMAFAEMkRBbvEBcxKAeoIbLGbWFDFMBcRcFAHjVlR",
     "AcNANAQMdFAcFBGAbBARbOecTbFpRAbtuMHbAdXDcOCBBABHVNlQAtTbQBIBDbedQGboKZGZdcFFBbPBIddnPbEGF",
     ""]⟩,
   ⟨["limbu", "limb"], ["doNAfxQbEBLELEADL"]⟩,
   ⟨["lineara", "lina"], ["dtiTbSbvGlYJVKH"]⟩,
   ⟨["linearb", "linb"], ["dsyQLBZBSBBBOCNbIeSFCEbSDI"]⟩,
   ⟨["lisu"], ["baYAQArdKBbsfSbVbumAA"]⟩,
   ⟨["lycian", "lyci"], ["mgOAdhqRbC"]⟩,
   ⟨["lydian", "lydi"], ["hBArfTAdexQZFA"]⟩,
   ⟨["mahajani", "mahj"], ["hBAdhKLcidCJbnuSbM"]⟩,
   ⟨["malayalam", "mlym"], ["dnTBRBbjMMBCBbYBCBFEPCZfvEAXAcasZC"]⟩,
   ⟨["mandaic", "mand"], ["cjOAtRbBCA"]⟩,
   ⟨["manichaean", "mani"], ["cjOAduqXbMEL"]⟩,
   ⟨["masaramgondi", "gonm"], ["doMBeajQGBBBbRDABBBIIJ"]⟩,
   ⟨["meroitichieroglyphs", "mero"], ["mgRAdkhMbF"]⟩,
   ⟨["modi"], ["clsAJbpoWcQLJ"]⟩,
   ⟨["mongolian", "mong"], ["jcIZGdKHbQcwAAfzTBFDdjfWM"]⟩,
   ⟨["multani", "mult"], ["dyKJdwaAGBABDBOBK"]⟩,
   ⟨["myanmar", "mymr"], ["gbOgDcfuCAgVbEdTbFbpaMT"]⟩,
   ⟨["nandinagari", "nand"], ["doMBbiMJgbHAIAHAcasRFbqySHCbTCK"]⟩,
   ⟨["nko", "nkoo"], ["chOAOADAqAcGCCdowSB"]⟩,
   ⟨["olonal", "onao"], ["doMBgykWbQEA"]⟩,
   ⟨["oldhungarian", "hung"], ["mgOACAfgDAPAdgeGbYNbYHF"]⟩,
   ⟨["oldpermic", "perm"], ["hBAwMAFCKAoDAdsmUbQ"]⟩,
   ⟨["oldturkic", "orkh"], ["mgOAfgFAdfzZcU"]⟩,
   ⟨["olduyghur", "ougr"], ["cjOAdusVAbsFZ"]⟩,
   ⟨["oriya", "orya"], ["dnTBRBpVCBHCBCVBGBBBECICBCCHCEBBECRgpEAXA"]⟩,
   ⟨["osage", "osge"], ["bdPACAGAcYAdtlVbJEbJ"]⟩,
   ⟨["phagspa", "phag"], ["jcKBBAdcJAfzUAbtnXcD"]⟩,
   ⟨["psalterpahlavi", "phlp"], ["cjOAduyHRHDMG"]⟩,
   ⟨["runic", "runr"], ["ioUdK"]⟩,
   ⟨["samaritan", "samr"], ["daUbTCOojQA"]⟩,
   ⟨["sharada", "shrd"], ["dnTAhkFABACBCAcatRFCAbnwPdR"]⟩,
   ⟨["shavian", "shaw"], ["hBAduiAbV"]⟩,
   ⟨["sinhala", "sinh"], ["doMBboLCBRDXBIBACGDAEFBABHGJCCfrPAdotQT"]⟩,
   ⟨["sogdian", "sogd"], ["cjOAdwiPbP"]⟩,
   ⟨["sunuwar", "sunu"], ["bdOBBAJACAbCADAecgKbHOJ"]⟩,
   ⟨["sylotinagri", "sylo"], ["doMBeYJchwIbS"]⟩,
   ⟨["syriac", "syrc"], ["bdRBCBBAVACCHBBAbcDAOBCAbGAKKbAAfNNBcHCCkMKieFABA"]⟩,
   ⟨["tagalog", "tglg"], ["isMVJAVB"]⟩,
   ⟨["tagbanwa", "tagb"], ["iuNBbPMBCBB"]⟩,
   ⟨["taile", "tale"], ["bdOBFBDAezZJdkWbDCE"]⟩,
   ⟨["takri", "takr"], ["doMBcidMJbptUcFGJ"]⟩,
   ⟨["tamil", "taml"], ["dnTBRBuUBBFDCBDDBBABBDBDCDLEEDCBDCAGAOUgkDAcbbKAboeFABAcDBetFbXNA"]⟩,
   ⟨["tangut", "tang"], ["seAPtBAeqkMAbFjbZIbdNtSI"]⟩,
   ⟨["telugu", "telu"], ["dnTBRBzQMBCBWBPCIBCBDHBBCCACDCJHIgfAAXA"]⟩,
   ⟨["thaana", "thaa"], ["chOAOBCAcMJkSbXdpgQAKA"]⟩,
   ⟨["thai"], ["baYAbAAbRAbTAecLcFFbB"]⟩,
   ⟨["tibetan", "tibt"], ["frScTBbJEbMBbJBOBGEBmeVD"]⟩,
   ⟨["tifinagh", "tfng"], ["bdQABACABApzAcDHBOA"]⟩,
   ⟨["tirhuta", "tirh"], ["dnTBRBhkMAcasZJbpaCcTIJ"]⟩,
   ⟨["todhri", "todr"], ["bdPACACAJABAcWAdtwBbZ"]⟩,
   ⟨["toto"], ["baYAgzsLbE"]⟩,
   ⟨["tulutigalari", "tutg"], ["exAJgbQABAcasXFhFAbojEJBACABbLBJBACABDBJBBIB"]⟩,
   ⟨["yezidi", "yezi"], ["chOAOADAcMJdwaGbPBCCB"]⟩,
   ⟨["yi", "yiii"], ["seRBFJCHiPAbqbCbsUDcCbiiCE"]⟩]

end PointsTo.Unicode
